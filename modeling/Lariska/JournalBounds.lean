import Lariska.LedgerBounds

/-!
# What is written to the journal and what its reader accepts

The reader of `native-journal.json` checks the size of the file, the number
and the identities of the receipts and the names of the directories. None of
the five places that write the journal makes these checks, but each part they
put together has been checked before: a receipt by
`remember_consumed_nonce`, a manifest by `verify_manifest_inner`, a directory
because it is a nonce or a number. `Journal.Sane` collects what is known of
the parts. It gives every check of the reader, and since it bounds every
field, it bounds the file: two hundred receipts of at most 217 bytes and two
releases, together below 45 000 bytes.
-/

namespace Lariska

open Prog (lift need ensure attempt guarded)

variable (P : Platform)

/-- **What the bound rests on**: the strings the version parser accepts and
the name of the build target are plain text, the latter not a long one, and a
decoded manifest has machine integers. -/
structure Platform.Bounded : Prop where
  semver : ∀ version v, P.semver version = .ok v → (Json.bytes version).all Json.plain = true
  targetTriple : (Json.bytes P.targetTriple).all Json.plain = true ∧
    P.targetTriple.utf8ByteSize ≤ 128
  readSigned : ∀ bytes signed, P.readSigned bytes = some signed →
    signed.manifest.expiresAt < 2 ^ 64 ∧ signed.manifest.sequence < 2 ^ 64

/-! ## What is known of the parts -/

/-- A version within the limits of `parse_version`. -/
structure SaneVersion (version : String) : Prop where
  short : version.utf8ByteSize ≤ 128
  parsed : ∃ v, P.semver version = .ok v

structure ConsumedRequest.Sane (r : ConsumedRequest) : Prop where
  nonce : validNonce r.nonce = true
  version : SaneVersion P r.version
  sequence : r.sequence < 2 ^ 64

structure ReleaseManifest.Sane (m : ReleaseManifest) : Prop where
  schema : m.schema = 1
  keyId : safeId m.keyId = true
  version : SaneVersion P m.version
  platform : m.platform = P.targetTriple
  sizeBytes : m.sizeBytes ≤ hardMaxDownloadBytes
  sha256 : m.sha256.utf8ByteSize = 64 ∧ (Json.bytes m.sha256).all isLowerHexDigit = true
  expiresAt : m.expiresAt < 2 ^ 64
  sequence : m.sequence < 2 ^ 64

structure CachedRelease.Sane (r : CachedRelease) : Prop where
  manifest : r.manifest.Sane P
  directory : plainDirectory r.directory = true
  short : r.directory.utf8ByteSize ≤ 32

structure Pending.Sane (p : Pending) : Prop where
  release : p.release.Sane P
  nonce : validNonce p.nonce = true
  startedAt : p.startedAt < 2 ^ 64

structure Journal.Sane (j : Journal) : Prop where
  active : ∀ r, j.active = some r → r.Sane P
  pending : ∀ p, j.pending = some p → p.Sane P
  consumed : ∀ r ∈ j.consumed, r.Sane P
  distinct : (j.consumed.map ConsumedRequest.nonce).Nodup
  count : j.consumed.length ≤ maxRequests

variable {P}

/-! ## Sizes -/

theorem plain_of_lowerHex {b : UInt8} : isLowerHexDigit b = true → Json.plain b = true :=
  Json.forall_byte (p := fun b => isLowerHexDigit b = true → Json.plain b = true)
    (by decide +kernel) b

theorem plain_of_alphanumeric {b : UInt8} : isAlphanumeric b = true → Json.plain b = true :=
  Json.forall_byte (p := fun b => isAlphanumeric b = true → Json.plain b = true)
    (by decide +kernel) b

theorem isDigit_byte {c : Char} (h : c.isDigit = true) : isDigit (Json.byte c) = true := by
  simp only [Char.isDigit, Bool.and_eq_true, decide_eq_true_eq] at h
  have hlow : 48 ≤ c.toNat := UInt32.le_iff_toNat_le.mp h.1
  have hhigh : c.toNat ≤ 57 := UInt32.le_iff_toNat_le.mp h.2
  have hall : ∀ n ≤ 57, 48 ≤ n → isDigit (UInt8.ofNat n) = true := by decide
  exact hall c.toNat hhigh hlow

/-- Text whose every byte passes a test for plain bytes takes its own length. -/
theorem escapedSize_of_all {s : String} {p : UInt8 → Bool} (h : (Json.bytes s).all p = true)
    (hp : ∀ b, p b = true → Json.plain b = true) : Json.escapedSize s = s.utf8ByteSize := by
  refine Json.escapedSize_of_plain (List.all_eq_true.mpr fun b hb => ?_)
  exact hp b (List.all_eq_true.mp h b hb)

theorem escapedSize_nonce {nonce : String} (h : validNonce nonce = true) :
    Json.escapedSize nonce = 32 := by
  simp only [validNonce, Bool.and_eq_true, beq_iff_eq] at h
  rw [escapedSize_of_all h.2 fun _ => plain_of_lowerHex, h.1]

theorem escapedSize_id {id : String} (h : safeId id = true) : Json.escapedSize id ≤ 64 := by
  simp only [safeId, Bool.and_eq_true, decide_eq_true_eq] at h
  rw [escapedSize_of_all h.2 fun b hb => ?_]
  · exact h.1.2
  · simp only [Bool.or_eq_true, beq_iff_eq] at hb
    obtain (hb | rfl) | rfl := hb
    · exact plain_of_alphanumeric hb
    · decide
    · decide

theorem SaneVersion.escapedSize_le (hP : P.Bounded) {version : String}
    (h : SaneVersion P version) : Json.escapedSize version ≤ 128 := by
  obtain ⟨v, hv⟩ := h.parsed
  rw [Json.escapedSize_of_plain (hP.semver version v hv)]
  exact h.short

theorem CachedRelease.Sane.escapedSize_le {r : CachedRelease} (h : r.Sane P) :
    Json.escapedSize r.directory ≤ 32 := by
  have hdirectory := h.directory
  simp only [plainDirectory, Bool.and_eq_true] at hdirectory
  rw [escapedSize_of_all hdirectory.2 fun b hb => ?_]
  · exact h.short
  · simp only [Bool.or_eq_true, beq_iff_eq] at hb
    obtain hb | rfl := hb
    · exact plain_of_alphanumeric hb
    · decide

theorem ConsumedRequest.Sane.length_json_le (hP : P.Bounded) {r : ConsumedRequest}
    (h : r.Sane P) : r.json.length ≤ 217 := by
  have h₁ : Json.escapedSize "nonce" = 5 := by decide
  have h₂ : Json.escapedSize "version" = 7 := by decide
  have h₃ : Json.escapedSize "sequence" = 8 := by decide
  have hnonce := escapedSize_nonce h.nonce
  have hversion := h.version.escapedSize_le hP
  have hsequence := Json.length_nat_le_of_u64 h.sequence
  unfold ConsumedRequest.json
  rw [Json.length_object]
  simp only [List.map_cons, List.map_nil, List.sum_cons, List.sum_nil, List.length_cons,
    List.length_nil, Json.length_str, h₁, h₂, h₃]
  omega

theorem ReleaseManifest.Sane.length_json_le (hP : P.Bounded) {m : ReleaseManifest}
    (h : m.Sane P) : m.json.length ≤ 558 := by
  have h₁ : Json.escapedSize "schema" = 6 := by decide
  have h₂ : Json.escapedSize "key_id" = 6 := by decide
  have h₃ : Json.escapedSize "version" = 7 := by decide
  have h₄ : Json.escapedSize "platform" = 8 := by decide
  have h₅ : Json.escapedSize "package_kind" = 12 := by decide
  have h₆ : Json.escapedSize "size_bytes" = 10 := by decide
  have h₇ : Json.escapedSize "sha256" = 6 := by decide
  have h₈ : Json.escapedSize "expires_at" = 10 := by decide
  have h₉ : Json.escapedSize "sequence" = 8 := by decide
  have hschema : (Json.nat m.schema).length = 1 := by
    rw [h.schema]
    decide
  have hkey := escapedSize_id h.keyId
  have hversion := h.version.escapedSize_le hP
  have hplatform : Json.escapedSize m.platform ≤ 128 := by
    rw [h.platform, Json.escapedSize_of_plain hP.targetTriple.1]
    exact hP.targetTriple.2
  have hkind : Json.escapedSize m.packageKind.asStr = 3 := by
    cases m.packageKind <;> decide
  have hsize : (Json.nat m.sizeBytes).length ≤ 10 :=
    Json.length_nat_le (by decide) (h.sizeBytes.trans_lt (by decide))
  have hdigest : Json.escapedSize m.sha256 = 64 := by
    rw [escapedSize_of_all h.sha256.2 fun _ => plain_of_lowerHex, h.sha256.1]
  have hexpires := Json.length_nat_le_of_u64 h.expiresAt
  have hsequence := Json.length_nat_le_of_u64 h.sequence
  unfold ReleaseManifest.json
  rw [Json.length_object]
  simp only [List.map_cons, List.map_nil, List.sum_cons, List.sum_nil, List.length_cons,
    List.length_nil, Json.length_str, h₁, h₂, h₃, h₄, h₅, h₆, h₇, h₈, h₉]
  omega

theorem CachedRelease.Sane.length_json_le (hP : P.Bounded) {r : CachedRelease} (h : r.Sane P) :
    r.json.length ≤ 618 := by
  have h₁ : Json.escapedSize "manifest" = 8 := by decide
  have h₂ : Json.escapedSize "directory" = 9 := by decide
  have hmanifest := h.manifest.length_json_le hP
  have hdirectory := h.escapedSize_le
  unfold CachedRelease.json
  rw [Json.length_object]
  simp only [List.map_cons, List.map_nil, List.sum_cons, List.sum_nil, List.length_cons,
    List.length_nil, Json.length_str, h₁, h₂]
  omega

theorem Pending.Sane.length_json_le (hP : P.Bounded) {p : Pending} (h : p.Sane P) :
    p.json.length ≤ 707 := by
  have h₁ : Json.escapedSize "release" = 7 := by decide
  have h₂ : Json.escapedSize "nonce" = 5 := by decide
  have h₃ : Json.escapedSize "started_at" = 10 := by decide
  have hrelease := h.release.length_json_le hP
  have hnonce := escapedSize_nonce h.nonce
  have hstarted := Json.length_nat_le_of_u64 h.startedAt
  unfold Pending.json
  rw [Json.length_object]
  simp only [List.map_cons, List.map_nil, List.sum_cons, List.sum_nil, List.length_cons,
    List.length_nil, Json.length_str, h₁, h₂, h₃]
  omega

/-- **Two hundred receipts and two releases fit in the file.** -/
theorem Journal.Sane.length_json_le (hP : P.Bounded) {j : Journal} (h : j.Sane P) :
    j.json.length ≤ 44960 := by
  have h₁ : Json.escapedSize "active" = 6 := by decide
  have h₂ : Json.escapedSize "pending" = 7 := by decide
  have h₃ : Json.escapedSize "consumed" = 8 := by decide
  have hnull : (Json.bytes "null").length = 4 := by decide
  have hactive : (Json.opt CachedRelease.json j.active).length ≤ 618 := by
    cases hj : j.active with
    | none => exact hnull.trans_le (by decide)
    | some r => exact (h.active r hj).length_json_le hP
  have hpending : (Json.opt Pending.json j.pending).length ≤ 707 := by
    cases hj : j.pending with
    | none => exact hnull.trans_le (by decide)
    | some p => exact (h.pending p hj).length_json_le hP
  have hsum : ((j.consumed.map ConsumedRequest.json).map List.length).sum
      ≤ j.consumed.length * 217 := by
    rw [List.map_map]
    refine (List.sum_le_card_nsmul _ 217 fun n hn => ?_).trans_eq ?_
    · obtain ⟨r, hr, rfl⟩ := List.mem_map.mp hn
      exact (h.consumed r hr).length_json_le hP
    · rw [List.length_map, smul_eq_mul]
  have hcount : j.consumed.length ≤ 200 := h.count
  unfold Journal.json
  rw [Json.length_object]
  simp only [List.map_cons, List.map_nil, List.sum_cons, List.sum_nil, List.length_cons,
    List.length_nil, Json.length_array, List.length_map, h₁, h₂, h₃]
  omega

/-! ## The checks of the reader -/

/-- The loop over the receipts accepts those whose nonces are new. -/
theorem checkConsumed_eq_ok {receipts : List ConsumedRequest} (h : ∀ r ∈ receipts, r.Sane P)
    {nonces : List String} (hnew : ∀ r ∈ receipts, r.nonce ∉ nonces)
    (hdistinct : (receipts.map ConsumedRequest.nonce).Nodup) :
    checkConsumed P nonces receipts = .ok () := by
  induction receipts generalizing nonces with
  | nil => rfl
  | cons r rest ih =>
    have hr := h r (List.mem_cons_self ..)
    obtain ⟨v, hv⟩ := hr.version.parsed
    obtain ⟨hfirst, hrest⟩ := List.nodup_cons.mp hdistinct
    refine Except.bind_eq_ok.mpr ⟨(), require_eq_ok.mpr ⟨hr.nonce, ?_, hr.version.short⟩, ?_⟩
    · exact hnew r (List.mem_cons_self ..)
    refine Except.bind_eq_ok.mpr ⟨(), ?_, ?_⟩
    · unfold parseReceiptVersion
      rw [hv]
      rfl
    refine ih (fun r' hr' => h r' (List.mem_cons_of_mem _ hr')) (fun r' hr' => ?_) hrest
    rw [List.mem_cons, not_or]
    refine ⟨?_, hnew r' (List.mem_cons_of_mem _ hr')⟩
    rintro heq
    exact hfirst (heq ▸ List.mem_map_of_mem hr')

/-- **A sane journal is accepted.** -/
theorem Journal.Sane.check_eq_ok (hP : P.Bounded) {j : Journal} (h : j.Sane P) :
    checkJournal P j = .ok () := by
  have hsize : j.json.length ≤ maxJournalBytes := (h.length_json_le hP).trans (by decide)
  refine Except.bind_eq_ok.mpr ⟨(), require_eq_ok.mpr hsize, ?_⟩
  refine Except.bind_eq_ok.mpr ⟨(), require_eq_ok.mpr h.count, ?_⟩
  refine Except.bind_eq_ok.mpr ⟨(), ?_, require_eq_ok.mpr fun r hr => ?_⟩
  · exact checkConsumed_eq_ok h.consumed (fun _ _ => List.not_mem_nil) h.distinct
  · rw [Journal.releases, List.mem_append, Option.mem_toList, Option.mem_toList] at hr
    obtain hr | hr := hr
    · exact (h.active r hr).directory
    · obtain ⟨p, hp, rfl⟩ := Option.map_eq_some_iff.mp hr
      exact (h.pending p hp).release.directory

/-! ## What the programs put together is sane -/

theorem safeId_of_validateKeys {ids : List String} {keys : List TrustedKey}
    (h : UpdateConfig.validateKeys P ids keys = .ok ()) : ∀ key ∈ keys, safeId key.id = true := by
  induction keys generalizing ids with
  | nil => exact fun _ hk => nomatch hk
  | cons key keys ih =>
    obtain ⟨_, hsafe, h⟩ := Except.bind_eq_ok.mp h
    obtain ⟨bytes, -, h⟩ := Except.bind_eq_ok.mp h
    intro key' hkey'
    obtain rfl | hkey' := List.mem_cons.mp hkey'
    · exact (require_eq_ok.mp hsafe).1
    · split at h
      · exact ih h key' hkey'
      · exact absurd h (by simp)

theorem UpdateConfig.safeId_of_validate {config : UpdateConfig}
    (h : config.validate P = .ok ()) : ∀ key ∈ config.trustedKeys, safeId key.id = true := by
  obtain ⟨_, -, h⟩ := Except.bind_eq_ok.mp h
  obtain ⟨_, -, h⟩ := Except.bind_eq_ok.mp h
  obtain ⟨_, -, h⟩ := Except.bind_eq_ok.mp h
  obtain ⟨_, -, h⟩ := Except.bind_eq_ok.mp h
  obtain ⟨_, hkeys, -⟩ := Except.bind_eq_ok.mp h
  exact safeId_of_validateKeys hkeys

/-- **A verified manifest is sane.** -/
theorem verified_sane (hP : P.Bounded) {config : Config} {signed : SignedManifest} {text : Bytes}
    (hread : P.readSigned text = some signed) (hshape : verifyShape P config signed = .ok ())
    (hsigned : verifySignature P config signed = .ok ()) : signed.manifest.Sane P := by
  obtain ⟨hexpires, hsequence⟩ := hP.readSigned text signed hread
  obtain ⟨hversion, hplatform, -, hshort⟩ := verifyShape_eq_ok hshape
  obtain ⟨key, hkey, hid, -⟩ := verifySignature_eq_ok hsigned
  obtain ⟨_, hconfig, hshape⟩ := Except.bind_eq_ok.mp hshape
  obtain ⟨_, hschema, hshape⟩ := Except.bind_eq_ok.mp hshape
  obtain ⟨_, -, hshape⟩ := Except.bind_eq_ok.mp hshape
  obtain ⟨_, -, hshape⟩ := Except.bind_eq_ok.mp hshape
  obtain ⟨_, -, hshape⟩ := Except.bind_eq_ok.mp hshape
  obtain ⟨_, -, hshape⟩ := Except.bind_eq_ok.mp hshape
  obtain ⟨_, hsize, hdigest⟩ := Except.bind_eq_ok.mp hshape
  exact {
    schema := require_eq_ok.mp hschema
    keyId := hid ▸ UpdateConfig.safeId_of_validate hconfig key hkey
    version := ⟨hshort, hversion⟩
    platform := hplatform
    sizeBytes := (require_eq_ok.mp hsize).2.2
    sha256 := require_eq_ok.mp hdigest
    expiresAt := hexpires
    sequence := hsequence }

theorem verifyFiles_sane (hP : P.Bounded) {w : World} (config : Config) (directory : String) :
    Observes (verifyFiles P config directory) w (fun m => m.Sane P) := by
  refine (readManifest_observes P directory).bind fun signed w₁ _ hread => ?_
  refine (verifyManifest_observes P config signed).bind fun _ w₂ _ hchecks => ?_
  refine (verifyArtifact_observes P config signed directory).bind fun _ w₃ _ _ => ?_
  obtain ⟨_, text, -, -, hread⟩ := hread
  exact observes_pure (verified_sane hP hread hchecks.1.1 hchecks.1.2)

namespace Journal.Sane

variable {j : Journal}

theorem empty : Journal.empty.Sane P where
  active := fun _ h => nomatch h
  pending := fun _ h => nomatch h
  consumed := fun _ h => nomatch h
  distinct := List.nodup_nil
  count := Nat.zero_le _

theorem settle (h : j.Sane P) : { j with pending := none : Journal }.Sane P :=
  ⟨h.active, (fun _ hp => nomatch hp), h.consumed, h.distinct, h.count⟩

theorem enlist (h : j.Sane P) {p : Pending} (hp : p.Sane P) :
    { j with pending := some p : Journal }.Sane P := by
  refine ⟨h.active, ?_, h.consumed, h.distinct, h.count⟩
  rintro _ ⟨⟩
  exact hp

theorem rearm (h : j.Sane P) {startedAt : Nat} (hs : startedAt < 2 ^ 64) :
    { j with pending := j.pending.map fun p => { p with startedAt } : Journal }.Sane P := by
  refine ⟨h.active, fun p hp => ?_, h.consumed, h.distinct, h.count⟩
  obtain ⟨q, hq, rfl⟩ := Option.map_eq_some_iff.mp hp
  exact ⟨(h.pending q hq).release, (h.pending q hq).nonce, hs⟩

theorem activate (h : j.Sane P) {r : CachedRelease} (hr : r.Sane P) :
    { j with active := some r : Journal }.Sane P := by
  refine ⟨?_, h.pending, h.consumed, h.distinct, h.count⟩
  rintro _ ⟨⟩
  exact hr

theorem settled (h : j.Sane P) (outcome : String) {r : CachedRelease} (hr : r.Sane P) :
    (j.settled outcome r).Sane P := by
  unfold Journal.settled
  split
  · exact (h.activate hr).settle
  · exact h.settle

/-- Receipts may be dropped. -/
theorem restrict (h : j.Sane P) {consumed : List ConsumedRequest}
    (hsub : consumed.Sublist j.consumed) : { j with consumed : Journal }.Sane P :=
  ⟨h.active, h.pending, fun r hr => h.consumed r (hsub.subset hr),
    h.distinct.sublist (hsub.map _), hsub.length_le.trans h.count⟩

/-- A receipt may be added under a new nonce, while there is room. -/
theorem push (h : j.Sane P) {receipt : ConsumedRequest} (hr : receipt.Sane P)
    (hnew : ∀ r ∈ j.consumed, r.nonce ≠ receipt.nonce) (hroom : j.consumed.length < maxRequests) :
    { j with consumed := j.consumed ++ [receipt] : Journal }.Sane P where
  active := h.active
  pending := h.pending
  consumed := by
    intro r hmem
    obtain hmem | hmem := List.mem_append.mp hmem
    · exact h.consumed r hmem
    · exact List.mem_singleton.mp hmem ▸ hr
  distinct := by
    show ((j.consumed ++ [receipt]).map ConsumedRequest.nonce).Nodup
    rw [List.map_append, List.nodup_append]
    refine ⟨h.distinct, List.nodup_singleton _, ?_⟩
    rintro a ha b hb rfl
    obtain ⟨r, hr, rfl⟩ := List.mem_map.mp ha
    exact hnew r hr (List.mem_singleton.mp hb)
  count := by
    show (j.consumed ++ [receipt]).length ≤ maxRequests
    rw [List.length_append, List.length_singleton]
    exact hroom

end Journal.Sane

/-! ## The invariant -/

/-- The clock and the random number of a turn are machine integers. -/
def Turn.Bounded (t : Turn) : Prop := t.now < 2 ^ 64 ∧ t.random < 2 ^ 64

/-- **What the programs keep**: the `journal` variable is sane, and so is the
journal on disk, now and before; so is the sequence of the transaction in the
ledger. -/
structure JournalKept (P : Platform) (w : World) : Prop where
  held : w.journal.Sane P
  onDisk : w.host.journal.Sane P
  before : ∀ entry ∈ w.trace, entry.2.journal.Sane P
  ledger : ∀ p, (w.host.ledger P).pending = some p → p.sequence < 2 ^ 64
  script : ∀ t ∈ w.script, t.Bounded

theorem JournalKept.happened {w : World} (h : JournalKept P w) (e : Event) :
    ∀ entry ∈ (w.happen e).trace, entry.2.journal.Sane P := by
  intro entry hentry
  obtain rfl | hentry := List.mem_cons.mp hentry
  · exact h.onDisk
  · exact h.before entry hentry

theorem documental_journalKept : Documental (JournalKept P) where
  turns := fun hs h => ⟨h.held, h.onDisk, h.before, h.ledger, fun t ht =>
    h.script t (hs ▸ List.mem_cons_of_mem _ ht)⟩
  events := by
    intro w e he h
    refine ⟨h.held, ?_, h.happened e, ?_, h.script⟩
    · rw [World.happen_host, Event.journal_kept he]
      exact h.onDisk
    · rw [World.happen_host, Event.ledger_kept he]
      exact h.ledger

theorem JournalKept.wroteJournal {w : World} (h : JournalKept P w) {j : Journal} (hj : j.Sane P)
    (why : JournalWrite) : JournalKept P (w.happen (.wroteJournal why j)) :=
  ⟨h.held, hj, h.happened _, h.ledger, h.script⟩

theorem JournalKept.wroteLedger {w : World} (h : JournalKept P w) {l : UpdateLedger}
    (hl : ∀ p, l.pending = some p → p.sequence < 2 ^ 64) (why : LedgerWrite) :
    JournalKept P (w.happen (.wroteLedger why l)) := 
  ⟨h.held, h.onDisk, h.happened _, hl, h.script⟩

theorem setJournal_keeps {j : Journal} (hj : j.Sane P) : (setJournal j).Keeps (JournalKept P) :=
  Prog.keeps_modify fun _ h => ⟨hj, h.onDisk, h.before, h.ledger, h.script⟩

/-- The `journal` variable, of which the invariant is known. -/
theorem getJournal_then {β : Type} {f : Journal → Act β} {w : World} (h : JournalKept P w)
    (hf : ∀ j, j.Sane P → j = w.journal → (f j).Leads w (fun _ => JournalKept P)
      (fun _ => JournalKept P) (JournalKept P)) :
    (getJournal >>= f).Leads w (fun _ => JournalKept P) (fun _ => JournalKept P)
      (JournalKept P) :=
  Prog.leads_bind.mpr (Prog.leads_bind.mpr (Prog.leads_get.mpr ((Prog.leads_pure _).mpr
    (hf w.journal h.held rfl))))

/-- Whatever the programs do with a sane journal, they may do with the
variable. -/
theorem getJournal_keeps {β : Type} {f : Journal → Act β}
    (hf : ∀ j, j.Sane P → (f j).Keeps (JournalKept P)) :
    (getJournal >>= f).Keeps (JournalKept P) := fun w h =>
  Prog.leads_bind.mpr (Prog.leads_bind.mpr (Prog.leads_get.mpr ((Prog.leads_pure _).mpr
    (hf w.journal h.held w h))))

/-! ## Clocks -/

theorem unixNow_bounded {w : World} (h : JournalKept P w) :
    Observes unixNow w (fun now => now < 2 ^ 64) :=
  observes_step.bind fun t _ _ ht => observes_pure (h.script t ht).1

theorem clockNow_bounded {w : World} (h : JournalKept P w) :
    Observes clockNow w (fun now => now < 2 ^ 64) :=
  observes_turn.bind fun t _ _ ht => by
    cases t.fate with
    | failed _ => exact observes_pure (by decide)
    | _ => exact observes_pure (h.script t ht).1

/-! ## The writers of the journal -/

section Programs

variable {config : Config} {nonce : String}

theorem writeJournal_keeps (why : JournalWrite) : (writeJournal why).Keeps (JournalKept P) := by
  refine getJournal_keeps fun j hj => Prog.keeps_ensure.bind fun _ => ?_
  exact fun w h => perform_keeps documental_journalKept h fun _ _ h' => h'.wroteJournal hj why

/-- Settling: the variable is changed and written. -/
theorem setJournal_write_keeps {j : Journal} (hj : j.Sane P) (why : JournalWrite) :
    (do
      setJournal j
      writeJournal why).Keeps (JournalKept P) :=
  (setJournal_keeps hj).bind fun _ => writeJournal_keeps why

theorem pruneReceipts_keeps {w : World} (h : JournalKept P w) :
    (pruneReceipts P).Leads w
      (fun _ w' => JournalKept P w' ∧ w'.journal.consumed.Sublist w.journal.consumed)
      (fun _ => JournalKept P) (JournalKept P) := by
  have hI : Documental (JournalKept P) := documental_journalKept
  refine (readLedger_observes P).then_keeping (hI.readLedger P) h (fun l w₁ hc₁ _ h₁ => ?_)
    (fun _ _ _ h => h)
  cases hf : P.semver l.floorVersion with
  | error e => exact (Prog.leads_fail _).mpr h₁
  | ok floor =>
    refine observes_getJournal.then_keeping keeps_getJournal h₁
      (fun j w₂ hc₂ hj h₂ => ?_) (fun _ _ _ h => h)
    refine observes_lift.then_keeping Prog.keeps_lift h₂ (fun consumed w₃ _ hkept h₃ => ?_)
      (fun _ _ _ h => h)
    have hsub := (retained_eq_ok hf hkept).1
    have hj' : j = w.journal := hj.trans hc₁.journal
    subst hj'
    exact Prog.leads_modify.mpr
      ⟨⟨h.held.restrict hsub, h₃.onDisk, h₃.before, h₃.ledger, h₃.script⟩, hsub⟩

/-- The part of `remember_consumed_nonce` after the pruning. -/
theorem pushReceipt_keeps {w : World} (h : JournalKept P w) {accepting : Bool}
    {receipt : ConsumedRequest} (hr : receipt.Sane P)
    (hnew : ∀ r ∈ w.journal.consumed, r.nonce ≠ receipt.nonce) :
    (do
      let journal ← getJournal
      refuse (journal.consumed.length < maxRequests)
        "native consumed request history is full; administrator repair is required before accepting another update"
      setJournal { journal with consumed := journal.consumed ++ [receipt] }
      writeJournal (.reserve config accepting receipt)).Leads w
      (fun _ => JournalKept P) (fun _ => JournalKept P) (JournalKept P) := by
  refine getJournal_then h fun j hj heq => ?_
  subst heq
  refine observes_refuse.then_keeping Prog.keeps_ensure h (fun _ w₁ _ hroom h₁ => ?_)
    (fun _ _ _ h => h)
  exact setJournal_write_keeps (hj.push hr hnew hroom) _ w₁ h₁

theorem rememberConsumedNonce_keeps {accepting : Bool} {receipt : ConsumedRequest}
    (hsequence : receipt.sequence < 2 ^ 64) :
    (rememberConsumedNonce P config accepting receipt).Keeps (JournalKept P) := by
  intro w h
  refine observes_refuse.then_keeping Prog.keeps_ensure h (fun _ w₁ _ hid h₁ => ?_)
    (fun _ _ _ h => h)
  refine observes_lift.then_keeping Prog.keeps_lift h₁ (fun _ w₂ _ hparse h₂ => ?_)
    (fun _ _ _ h => h)
  have hr : receipt.Sane P := by
    refine ⟨hid.1, ⟨hid.2, ?_⟩, hsequence⟩
    unfold parseReceiptVersion at hparse
    cases hv : P.semver receipt.version with
    | ok v => exact ⟨v, rfl⟩
    | error e =>
      rw [hv] at hparse
      cases hparse
  refine getJournal_then h₂ fun j _ hj => ?_
  dsimp only
  cases hfind : j.consumed.find? (fun r => r.nonce == receipt.nonce) with
  | some previous => exact Prog.keeps_ensure w₂ h₂
  | none =>
    have hnew : ∀ r ∈ w₂.journal.consumed, r.nonce ≠ receipt.nonce := by
      rw [hj] at hfind
      simpa using hfind
    dsimp only
    refine Prog.leads_ite (fun _ => ?_) (fun _ => pushReceipt_keeps h₂ hr hnew)
    refine Prog.leads_bind.mpr ((pruneReceipts_keeps h₂).imp fun _ w₃ h₃ => ?_)
    exact pushReceipt_keeps h₃.1 hr fun r hmem => hnew r (h₃.2.subset hmem)

/-! ## The writers of the ledger -/

theorem commitPending_journalKept {manifest : ReleaseManifest} (hm : manifest.sequence < 2 ^ 64) :
    (commitPending P config manifest nonce).Keeps (JournalKept P) := by
  have hI : Documental (JournalKept P) := documental_journalKept
  refine Prog.keeps_lift.bind fun _ => (hI.readLedger P).bind fun ledger => ?_
  refine Prog.keeps_ensure.bind fun _ => hI.unixNow.bind fun now => ?_
  refine Prog.keeps_need.bind fun deadline => hI.step.bind fun _ => ?_
  refine Prog.Keeps.bind (fun w h => ?_) fun _ => hI.publishPendingHealth _
  refine perform_keeps hI h fun _ _ h' => h'.wroteLedger ?_ _
  rintro _ ⟨⟩
  exact hm

theorem armHealth_journalKept {w : World} (h : JournalKept P w) :
    (armHealth P config nonce).Leads w
      (fun armed w' => armed.startedAt < 2 ^ 64 ∧ JournalKept P w')
      (fun _ => JournalKept P) (JournalKept P) := by
  have hI : Documental (JournalKept P) := documental_journalKept
  refine observes_lift.then_keeping Prog.keeps_lift h (fun _ w₁ _ _ h₁ => ?_) (fun _ _ _ h => h)
  refine (readLedger_observes P).then_keeping (hI.readLedger P) h₁ (fun l w₂ _ hl h₂ => ?_)
    (fun _ _ _ h => h)
  refine observes_need.then_keeping Prog.keeps_need h₂ (fun pending w₃ _ hpending h₃ => ?_)
    (fun _ _ _ h => h)
  refine observes_refuse.then_keeping Prog.keeps_ensure h₃ (fun _ w₄ _ _ h₄ => ?_)
    (fun _ _ _ h => h)
  refine (unixNow_bounded h₄).then_keeping hI.unixNow h₄ (fun now w₅ _ hnow h₅ => ?_)
    (fun _ _ _ h => h)
  refine observes_need.then_keeping Prog.keeps_need h₅ (fun deadline w₆ _ _ h₆ => ?_)
    (fun _ _ _ h => h)
  have hsequence : pending.sequence < 2 ^ 64 := h₁.ledger pending (hl ▸ hpending)
  refine Prog.leads_bind.mpr ((perform_keeps hI h₆ fun w₇ _ h₇ => h₇.wroteLedger ?_ _).imp
    fun _ w₈ h₈ => ?_)
  · rintro _ ⟨⟩
    exact hsequence
  · refine Prog.leads_bind.mpr ((hI.publishPendingHealth _ w₈ h₈).imp fun _ w₉ h₉ => ?_)
    exact (Prog.leads_pure _).mpr ⟨hnow, h₉⟩

theorem finishUpdate_journalKept (healthy : Bool) (reason : String) :
    (finishUpdate P config nonce healthy reason).Keeps (JournalKept P) := by
  have hI : Documental (JournalKept P) := documental_journalKept
  refine Prog.keeps_lift.bind fun _ => (hI.readLedger P).bind fun ledger => ?_
  refine Prog.keeps_need.bind fun pending => Prog.keeps_ensure.bind fun _ => ?_
  refine hI.unixNow.bind fun now => Prog.keeps_lift.bind fun raised => ?_
  refine Prog.Keeps.bind (fun w h => ?_) fun _ => hI.removeMailbox
  refine perform_keeps hI h fun _ _ h' => h'.wroteLedger ?_ _
  exact fun _ hp => nomatch hp

/-! ## The operations -/

theorem rollbackWith_keeps (reason : String) :
    (rollbackWith P config reason).Keeps (JournalKept P) := by
  have hI : Documental (JournalKept P) := documental_journalKept
  refine getJournal_keeps fun j hj => ?_
  refine Prog.keeps_need.bind fun pending => Prog.keeps_need.bind fun previous => ?_
  refine (hI.verifyFilesForRecovery P config _).bind fun manifest => ?_
  refine hI.verifySignatureNative.bind fun _ => (hI.install _ _ _ _).bind fun _ => ?_
  refine hI.restart.bind fun _ => (finishUpdate_journalKept false reason).bind fun _ => ?_
  refine (setJournal_keeps hj.settle).bind fun _ => (writeJournal_keeps _).bind fun _ => ?_
  exact hI.pruneCache

theorem enlistRequest_keeps (hP : P.Bounded) (hnonce : validNonce nonce = true)
    (previous : CachedRelease) :
    (enlistRequest P config nonce previous).Keeps (JournalKept P) := by
  have hI : Documental (JournalKept P) := documental_journalKept
  intro w h
  refine (verifyFiles_sane hP config nonce).then_keeping (hI.verifyFiles P config nonce) h
    (fun manifest w₁ _ hm h₁ => ?_) (fun _ _ _ h => h)
  have hrelease : CachedRelease.Sane P ⟨manifest, nonce⟩ := by
    simp only [validNonce, Bool.and_eq_true, beq_iff_eq] at hnonce
    refine ⟨hm, ?_, hnonce.1.le⟩
    simp only [plainDirectory, Bool.and_eq_true, Bool.not_eq_true', String.isEmpty_eq_false_iff]
    refine ⟨?_, List.all_eq_true.mpr fun b hb => ?_⟩
    · rintro rfl
      exact absurd hnonce.1 (by decide)
    · have hhex := List.all_eq_true.mp hnonce.2 b hb
      simp only [isLowerHexDigit, Bool.or_eq_true, Bool.and_eq_true, decide_eq_true_eq] at hhex
      simp only [isAlphanumeric, Bool.or_eq_true, Bool.and_eq_true, decide_eq_true_eq]
      refine .inl (hhex.imp Or.inl fun hletter => 
        ⟨hletter.1, UInt8.le_trans hletter.2 (by decide)⟩)
  have hcommit : (do
      let _ ← verifySignatureNative
      let _ ← rememberConsumedNonce P config true (manifest.receipt nonce)
      let _ ← commitPending P config manifest nonce
      let started ← clockNow
      let journal ← getJournal
      let _ ← setJournal { journal with pending := some ⟨⟨manifest, nonce⟩, nonce, started⟩ }
      let _ ← writeJournal (.enlist ⟨⟨manifest, nonce⟩, nonce, started⟩)
      pure manifest : Act ReleaseManifest).Keeps (JournalKept P) := by
    refine hI.verifySignatureNative.bind fun _ => ?_
    refine (rememberConsumedNonce_keeps hm.sequence).bind fun _ => ?_
    refine (commitPending_journalKept hm.sequence).bind fun _ w₂ h₂ => ?_
    refine (clockNow_bounded h₂).then_keeping hI.clockNow h₂ (fun started w₃ _ hs h₃ => ?_)
      (fun _ _ _ h => h)
    refine getJournal_keeps (fun j hj => ?_) w₃ h₃
    refine (setJournal_keeps (hj.enlist ⟨hrelease, hnonce, hs⟩)).bind fun _ => ?_
    exact (writeJournal_keeps _).bind fun _ => Prog.keeps_pure manifest
  refine Prog.Keeps.bind Prog.keeps_ensure (fun _ => ?_) w₁ h₁
  dsimp only
  refine Prog.keeps_ite (fun _ => hcommit) fun _ => ?_
  exact (hI.readLedger P).bind fun _ => Prog.keeps_ensure.bind fun _ => hcommit

theorem installRequest_keeps (manifest : ReleaseManifest) :
    (installRequest P config nonce manifest).Keeps (JournalKept P) := by
  have hI : Documental (JournalKept P) := documental_journalKept
  refine (hI.install _ _ _ _).bind fun _ w h => ?_
  refine Prog.leads_bind.mpr ((armHealth_journalKept h).imp fun armed w₁ h₁ => ?_)
  refine getJournal_keeps (fun j hj => ?_) w₁ h₁.2
  exact (setJournal_keeps (hj.rearm h₁.1)).bind fun _ => (writeJournal_keeps _).bind fun _ =>
    hI.restart

theorem acceptRequestWith_keeps (hP : P.Bounded) :
    (acceptRequestWith P config nonce).Keeps (JournalKept P) := by
  have hI : Documental (JournalKept P) := documental_journalKept
  intro w h
  refine observes_refuse.then_keeping Prog.keeps_ensure h (fun _ w₁ _ hnonce h₁ => ?_)
    (fun _ _ _ h => h)
  refine getJournal_keeps (fun j _ => ?_) w₁ h₁
  refine Prog.keeps_ensure.bind fun _ => Prog.keeps_need.bind fun previous => ?_
  refine (hI.verifyFilesForRecovery P config _).bind fun _ => (hI.copyRequest _ _ _ _).bind fun _ => ?_
  refine (Prog.keeps_guarded (hI.removeDir nonce)
    (enlistRequest_keeps hP hnonce previous)).bind fun manifest => ?_
  refine (hI.ackRequest nonce "accepted").bind fun _ => ?_
  refine (Prog.keeps_attempt (installRequest_keeps manifest)).bind fun result => ?_
  cases result with
  | ok _ => exact Prog.keeps_pure ()
  | error fault => exact (rollbackWith_keeps _).bind fun _ => Prog.keeps_fail fault

theorem completeFinished_keeps {ledger : UpdateLedger} {pending : Pending} (hp : pending.Sane P) :
    (completeFinished P config ledger pending).Keeps (JournalKept P) := by
  have hI : Documental (JournalKept P) := documental_journalKept
  unfold completeFinished
  cases ledger.history.getLast? with
  | none => exact Prog.keeps_fail _
  | some last =>
    refine Prog.keeps_ite (fun _ => ?_) fun _ => Prog.keeps_fail _
    refine Prog.keeps_ensure.bind fun _ => ?_
    refine (rememberConsumedNonce_keeps hp.release.manifest.sequence).bind fun _ => ?_
    refine getJournal_keeps fun j hj => ?_
    refine (setJournal_keeps (hj.settled last.outcome hp.release)).bind fun _ => ?_
    exact (writeJournal_keeps _).bind fun _ => hI.pruneCache

theorem superviseHealth_keeps {pending : Pending} (hp : pending.Sane P)
    (authoritative : PendingUpdate) :
    (superviseHealth P config pending authoritative).Keeps (JournalKept P) := by
  have hI : Documental (JournalKept P) := documental_journalKept
  have hwatch : (do
      let now ← clockNow
      if now ≥ authoritative.deadline then
        rollbackWith P config "healthy_heartbeat_timeout"
      else pure () : Act Unit).Keeps (JournalKept P) :=
    hI.clockNow.bind fun now => Prog.keeps_ite (fun _ => rollbackWith_keeps _) fun _ =>
      Prog.keeps_pure ()
  refine Prog.keeps_ensure.bind fun _ => ?_
  refine (rememberConsumedNonce_keeps hp.release.manifest.sequence).bind fun _ => ?_
  refine (Prog.keeps_attempt (hI.healthStatusForPending _)).bind fun status => ?_
  match status with
  | .ok true =>
    refine (finishUpdate_journalKept true "healthy_heartbeat").bind fun _ => ?_
    refine getJournal_keeps fun j hj => ?_
    refine (setJournal_keeps (hj.settled "healthy" hp.release)).bind fun _ => ?_
    exact (writeJournal_keeps _).bind fun _ => hI.pruneCache
  | .ok false => exact hwatch
  | .error _ => exact hwatch

theorem recoverOrAckWith_keeps : (recoverOrAckWith P config).Keeps (JournalKept P) := by
  have hI : Documental (JournalKept P) := documental_journalKept
  intro w h
  refine (readLedger_observes P).then_keeping (hI.readLedger P) h (fun ledger w₁ _ hl h₁ => ?_)
    (fun _ _ _ h => h)
  have hledger : ∀ p, ledger.pending = some p → p.sequence < 2 ^ 64 := hl ▸ h.ledger
  refine getJournal_keeps (fun j hj => ?_) w₁ h₁
  cases hjp : j.pending with
  | none =>
    cases hlp : ledger.pending with
    | none => exact Prog.keeps_pure ()
    | some interrupted =>
      refine (rememberConsumedNonce_keeps (hledger interrupted hlp)).bind fun _ => ?_
      exact finishUpdate_journalKept false "interrupted_before_install"
  | some pending =>
    cases hlp : ledger.pending with
    | none => exact completeFinished_keeps (hj.pending pending hjp)
    | some authoritative => exact superviseHealth_keeps (hj.pending pending hjp) authoritative

/-! ## Seeding -/

theorem activateSeed_keeps (hP : P.Bounded) {directory : String}
    (hdirectory : plainDirectory directory = true) (hshort : directory.utf8ByteSize ≤ 32) :
    (activateSeed P config directory).Keeps (JournalKept P) := by
  have hI : Documental (JournalKept P) := documental_journalKept
  intro w h
  refine (verifyFiles_sane hP config directory).then_keeping (hI.verifyFiles P config directory) h
    (fun manifest w₁ _ hm h₁ => ?_) (fun _ _ _ h => h)
  refine hI.installedAgentVersion.bind (fun installed => ?_) w₁ h₁
  refine Prog.keeps_ite (fun _ => ?_) fun _ => ?_
  · exact (Documental.ignores (hI.removeDir directory)).bind fun _ => Prog.keeps_fail _
  refine hI.verifySignatureNative.bind fun _ w₂ h₂ => ?_
  refine (readLedger_observes P).then_keeping (hI.readLedger P) h₂ (fun ledger w₃ _ hl h₃ => ?_)
    (fun _ _ _ h => h)
  refine observes_lift.then_keeping Prog.keeps_lift h₃ (fun raised w₄ _ hraised h₄ => ?_)
    (fun _ _ _ h => h)
  have hledger : ∀ p, raised.pending = some p → p.sequence < 2 ^ 64 := by
    have hpending : raised.pending = ledger.pending := by
      unfold seedFloor at hraised
      split at hraised
      · exact absurd hraised (by simp)
      · exact absurd hraised (by simp)
      · cases hraised
        rfl
    rw [hpending, hl]
    exact h₂.ledger
  refine Prog.leads_bind.mpr ((perform_keeps hI h₄ fun _ _ h' => h'.wroteLedger hledger _).imp
    fun _ w₅ h₅ => ?_)
  refine getJournal_keeps (fun j hj => ?_) w₅ h₅
  exact (setJournal_keeps (hj.activate ⟨hm, hdirectory, hshort⟩)).bind fun _ =>
    writeJournal_keeps _

/-- The name of a seed directory: a machine word after a prefix. -/
theorem seedDirectory_sane {random : Nat} (h : random < 2 ^ 64) :
    plainDirectory ("seed-" ++ toString random) = true ∧
      ("seed-" ++ toString random).utf8ByteSize ≤ 32 := by
  have hbytes : Json.bytes ("seed-" ++ toString random)
      = Json.bytes "seed-" ++ Json.nat random := by
    rw [Json.bytes_append, Json.bytes_toString]
  have hdigits : ∀ b ∈ Json.nat random, isDigit b = true := by
    intro b hb
    obtain ⟨c, hc, rfl⟩ := List.mem_map.mp hb
    exact isDigit_byte (Nat.isDigit_of_mem_toDigits (by decide) (by decide) hc)
  refine ⟨?_, ?_⟩
  · simp only [plainDirectory, Bool.and_eq_true, Bool.not_eq_true', String.isEmpty_eq_false_iff]
    refine ⟨fun hempty => ?_, List.all_eq_true.mpr fun b hb => ?_⟩
    · rw [hempty] at hbytes
      exact absurd (congrArg List.length hbytes) (by
        rw [List.length_append]
        exact fun hlen => absurd (hlen.trans (Nat.add_comm _ _)) (by
          rw [show (Json.bytes "").length = 0 from rfl,
            show (Json.bytes "seed-").length = 5 from rfl]
          omega))
    · rw [hbytes, List.mem_append] at hb
      obtain hb | hb := hb
      · have hseed : (Json.bytes "seed-").all
            (fun b => isAlphanumeric b || b == Json.byte '-') = true := by
          decide
        exact List.all_eq_true.mp hseed b hb
      · simp [isAlphanumeric, hdigits b hb]
  · rw [← Json.length_bytes, hbytes, List.length_append]
    have hlength := Json.length_nat_le_of_u64 h
    have hprefix : (Json.bytes "seed-").length = 5 := by decide
    omega

theorem seed_keeps (hP : P.Bounded) (manifest artifact : Option Bytes) :
    (seed P config manifest artifact).Keeps (JournalKept P) := by
  have hI : Documental (JournalKept P) := documental_journalKept
  refine hI.step.bind fun _ w h => ?_
  refine (readJournal_observes P).then_keeping (hI.readJournal P) h (fun j w₁ _ hj h₁ => ?_)
    (fun _ _ _ h => h)
  have hsane : j.Sane P := hj ▸ h.onDisk
  have hcopy : (do
      let t ← turn
      let directory := "seed-" ++ toString t.random
      copyRequest (fun _ => manifest) (fun _ => artifact) directory
        config.updates.maxDownloadBytes
      guarded (removeDir directory) (activateSeed P config directory)
      pruneCache).Keeps (JournalKept P) := by
    intro w h
    refine observes_turn.then_keeping hI.turn h (fun t w₁ _ ht h₁ => ?_) (fun _ _ _ h => h)
    obtain ⟨hplain, hshort⟩ := seedDirectory_sane (h.script t ht).2
    refine (hI.copyRequest _ _ _ _).bind (fun _ => ?_) w₁ h₁
    refine (Prog.keeps_guarded (hI.removeDir _) (activateSeed_keeps hP hplain hshort)).bind
      fun _ => hI.pruneCache
  refine (setJournal_keeps hsane).bind (fun _ => Prog.keeps_ensure.bind fun _ => ?_) w₁ h₁
  cases hactive : j.active with
  | none => exact hcopy
  | some active =>
    dsimp only
    refine Prog.keeps_ite (fun _ => ?_) fun _ => hcopy
    exact (rememberConsumedNonce_keeps (hsane.active active hactive).manifest.sequence).bind
      fun _ => hcopy

/-! ## The loop and the processes -/

theorem acceptAll_keeps (hP : P.Bounded) (examined entries : List String) :
    (acceptAll P config examined entries).Keeps (JournalKept P) := by
  have hI : Documental (JournalKept P) := documental_journalKept
  induction entries generalizing examined with
  | nil => exact Prog.keeps_pure examined
  | cons entry rest ih =>
    unfold acceptAll
    refine Prog.keeps_ite (fun _ => ih examined) fun _ => ?_
    refine Prog.keeps_get.bind fun w => ?_
    refine (Prog.keeps_attempt (acceptRequestWith_keeps hP)).bind fun result => ?_
    have hnext : (do
        let journal ← getJournal
        if journal.pending ≠ none then pure (examine w.host examined entry)
        else acceptAll P config (examine w.host examined entry) rest).Keeps (JournalKept P) :=
      getJournal_keeps fun j _ => Prog.keeps_ite (fun _ => Prog.keeps_pure _) fun _ => ih _
    cases result with
    | ok _ => exact hnext
    | error _ => exact (Documental.ignores (hI.ackRequest entry "refused")).bind fun _ => hnext

theorem supervisePass_keeps (hP : P.Bounded) (examined : List String) :
    (supervisePass P config examined).Keeps (JournalKept P) := by
  have hI : Documental (JournalKept P) := documental_journalKept
  refine (hI.happens rfl).bind fun _ w h => ?_
  refine (readJournal_observes P).then_keeping (hI.readJournal P) h (fun j w₁ _ hj h₁ => ?_)
    (fun _ _ _ h => h)
  have hsane : j.Sane P := hj ▸ h.onDisk
  refine (setJournal_keeps hsane).bind (fun _ => recoverOrAckWith_keeps.bind fun _ => ?_) w₁ h₁
  refine hI.pruneCache.bind fun _ => getJournal_keeps fun j' _ => ?_
  refine Prog.keeps_ite (fun _ => Prog.keeps_pure _) fun _ => ?_
  exact hI.incomingRequests.bind fun entries => acceptAll_keeps hP examined entries

theorem supervise_keeps (hP : P.Bounded) (passes : Nat) (examined : List String) :
    (supervise P config passes examined).Keeps (JournalKept P) := by
  induction passes generalizing examined with
  | zero => exact Prog.keeps_pure ()
  | succ passes ih => exact (supervisePass_keeps hP examined).bind fun examined' => ih examined'

theorem program_keeps (hP : P.Bounded) (command : Command) :
    (command.program P).Keeps (JournalKept P) := by
  have hI : Documental (JournalKept P) := documental_journalKept
  refine Prog.keeps_lift.bind fun _ => ?_
  cases command with
  | seed config manifest artifact => exact seed_keeps hP manifest artifact
  | supervise config passes => exact hI.step.bind fun _ => supervise_keeps hP passes []

end Programs

/-! ## Whole runs -/

/-- The clocks and random numbers of the run are machine integers. -/
def Run.Bounded (r : Run) : Prop := ∀ process ∈ r.processes, ∀ t ∈ process.2, t.Bounded

/-- **The journal on disk is accepted by `read_journal` and reads as itself**,
whenever the file can be read at all. -/
def Host.JournalReadsBack (P : Platform) (h : Host) : Prop :=
  ∀ (w : World) (t : Turn) (script : List Turn), w.host.root = h.root →
    w.script = t :: script → t.fate = .done →
      ∃ w', readJournal P w = (.ok h.journal, w')

theorem Host.journalReadsBack {h : Host} (hok : checkJournal P h.journal = .ok ()) :
    h.JournalReadsBack P := by
  intro w t script hroot hs hf
  refine ⟨w.after t script, (andThen_ok (inspect_done hs hf)).trans ?_⟩
  rw [w.after_root t script, hroot]
  cases hj : h.root.journal with
  | none =>
    rw [Host.journal, hj]
    rfl
  | some j =>
    have hc : checkJournal P j = .ok () := by
      rw [Host.journal, hj] at hok
      exact hok
    rw [Host.journal, hj]
    dsimp only
    rw [hc]
    rfl

/-- A journal within the limit is not refused for its size. -/
theorem writeJournal_not_refused {w : World} (h : w.journal.json.length ≤ maxJournalBytes)
    (why : JournalWrite) :
    (writeJournal why).Leads w (fun _ _ => True)
      (fun fault _ => fault ≠ .text "native journal exceeds size limit") (fun _ => True) := by
  refine Prog.leads_bind.mpr (Prog.leads_bind.mpr (Prog.leads_get.mpr ((Prog.leads_pure _).mpr ?_)))
  refine Prog.leads_bind.mpr (Prog.leads_ensure.mpr ⟨fun _ => ?_, fun hn => absurd h hn⟩)
  exact perform_faults (fun detail => by simp) _ w

/-- A process starts with an empty variable and a script of its own. -/
theorem JournalKept.starting {past : Past Host Event} {h : Host}
    (hk : JournalKept P ⟨h, Journal.empty, [], past⟩) {script : List Turn}
    (hscript : ∀ t ∈ script, t.Bounded) : JournalKept P ⟨h, Journal.empty, script, past⟩ :=
  ⟨Journal.Sane.empty, hk.onDisk, hk.before, hk.ledger, hscript⟩

theorem runAll_kept (hP : P.Bounded) (processes : List (Command × List Turn))
    (hbounded : ∀ process ∈ processes, ∀ t ∈ process.2, t.Bounded)
    {past : Past Host Event} {h : Host} (hk : JournalKept P ⟨h, Journal.empty, [], past⟩) :
    JournalKept P ⟨(runAll P processes past h).2, Journal.empty, [],
      (runAll P processes past h).1⟩ := by
  induction processes generalizing past h with
  | nil => exact hk
  | cons process rest ih =>
    obtain ⟨command, script⟩ := process
    have hscript := hbounded (command, script) (List.mem_cons_self ..)
    have hw : JournalKept P (command.program P ⟨h, Journal.empty, script, past⟩).2 :=
      (program_keeps hP command _ (hk.starting hscript)).final
    exact ih (fun process hp => hbounded process (List.mem_cons_of_mem _ hp))
      ⟨Journal.Sane.empty, hw.onDisk, hw.before, hw.ledger, hk.script⟩

theorem Run.kept (hP : P.Bounded) {r : Run} (hr : r.Bounded) :
    JournalKept P ⟨r.host P, Journal.empty, [], r.past P⟩ :=
  runAll_kept hP r.processes hr ⟨Journal.Sane.empty, Journal.Sane.empty,
    (fun _ hentry => nomatch hentry), (fun _ hp => nomatch hp), (fun _ ht => nomatch ht)⟩

/-- **What is written to the journal is accepted by its reader, and is never
refused for its size.** In every state a run goes through, the journal on
disk is read back as it is. And wherever a process that follows it stops –
killed at any effect, the write of the journal included, or with an error –
the `journal` variable, which is all that is ever passed to `write_journal`,
passes every check of `read_journal`. -/
theorem journal_always_accepted (P : Platform) (hP : P.Bounded) (r : Run) (hr : r.Bounded) :
    (∀ h ∈ visited (r.past P) (r.host P),
      checkJournal P h.journal = .ok () ∧ h.JournalReadsBack P) ∧
    ∀ (command : Command) (script : List Turn), (∀ t ∈ script, t.Bounded) →
      ∀ w, w = (command.program P ⟨r.host P, Journal.empty, script, r.past P⟩).2 →
        checkJournal P w.journal = .ok () ∧
        ∀ why, (writeJournal why).Leads w (fun _ _ => True)
          (fun fault _ => fault ≠ .text "native journal exceeds size limit") (fun _ => True) := by
  have hkept := Run.kept hP hr
  refine ⟨fun h hh => ?_, ?_⟩
  · have hsane : h.journal.Sane P := by
      obtain rfl | hh := List.mem_cons.mp hh
      · exact hkept.onDisk
      · obtain ⟨entry, hentry, rfl⟩ := List.mem_map.mp hh
        exact hkept.before entry hentry
    exact ⟨hsane.check_eq_ok hP, Host.journalReadsBack (hsane.check_eq_ok hP)⟩
  · rintro command script hscript w rfl
    have hw : JournalKept P (command.program P ⟨r.host P, Journal.empty, script, r.past P⟩).2 :=
      (program_keeps hP command _
        (hkept.starting hscript)).final
    refine ⟨hw.held.check_eq_ok hP, fun why => writeJournal_not_refused ?_ why⟩
    exact (hw.held.length_json_le hP).trans (by decide)

namespace Sample

/-- The sample platform keeps to the bounds. -/
theorem platform_bounded : platform.Bounded where
  semver := by
    intro version place h
    have hlookup : versions.lookup version = some place := by
      cases hl : versions.lookup version with
      | none =>
        simp only [platform, hl] at h
        cases h
      | some found =>
        simp only [platform, hl] at h
        cases h
        rfl
    obtain ⟨front, back, hversions, -⟩ := List.lookup_eq_some_iff.mp hlookup
    have hmem : (version, place) ∈ versions := by
      rw [hversions]
      exact List.mem_append_right _ (List.mem_cons_self ..)
    have hall : ∀ v ∈ versions, (Json.bytes v.1).all Json.plain = true := by decide +kernel
    exact hall _ hmem
  targetTriple := by decide +kernel
  readSigned := by
    intro bytes signed h
    obtain ⟨r, hr, rfl⟩ := Option.map_eq_some_iff.mp h
    have hall : ∀ r ∈ releases, r.manifest.expiresAt < 2 ^ 64 ∧ r.manifest.sequence < 2 ^ 64 := by
      decide
    exact hall r (List.mem_of_find?_eq_some hr)

/-- A seeded host on which a request is accepted and its window watched. -/
def upgrade : Run := on [
  (seeding none current, quietly 40),
  (supervising none 2, quietly 5 ++ request nonce₁ newer :: quietly 80)]

theorem upgrade_bounded : upgrade.Bounded := by
  have hquietly : ∀ n, ∀ t ∈ quietly n, t.Bounded := by
    intro n t ht
    obtain rfl := List.eq_of_mem_replicate ht
    exact ⟨by decide, by decide⟩
  intro process hp t ht
  obtain rfl | rfl := List.mem_pair.mp hp
  · exact hquietly _ t ht
  · obtain ht | ht := List.mem_append.mp ht
    · exact hquietly _ t ht
    · obtain rfl | ht := List.mem_cons.mp ht
      · exact ⟨by decide, by decide⟩
      · exact hquietly _ t ht

/-- The journals of that run are read back, and so is what a seeding after it
would write. -/
theorem upgrade_journal_accepted :
    (∀ h ∈ visited (upgrade.past platform) (upgrade.host platform),
      checkJournal platform h.journal = .ok () ∧ h.JournalReadsBack platform) ∧
    checkJournal platform ((seeding none newer).program platform
      ⟨upgrade.host platform, Journal.empty, quietly 30, upgrade.past platform⟩).2.journal
        = .ok () := by
  obtain ⟨hread, hpassed⟩ :=
    journal_always_accepted platform platform_bounded upgrade upgrade_bounded
  refine ⟨hread, (hpassed (seeding none newer) (quietly 30) (fun t ht => ?_) _ rfl).1⟩
  obtain rfl := List.eq_of_mem_replicate ht
  exact ⟨by decide, by decide⟩

end Sample

end Lariska
