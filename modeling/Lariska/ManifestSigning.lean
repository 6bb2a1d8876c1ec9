import Lariska.JournalBounds
import Lariska.ManifestEncoding
import Lariska.SupervisorRuns

/-!
# What the publisher's script signs

A release is signed by `packaging/ci/sign-manifest.py`, whose encoder escapes
what is not printable ASCII, and verified by the agent, whose encoder does not.
On text below the delete character the two write the same bytes, and each
string of a manifest the agent can accept is such text, for a reason of its own:
the key is of the local keyring, the version a semantic one, the platform that
of the build, the digest hexadecimal.
-/

namespace Lariska

open Json (byte)

/-! ## The script's encoder -/

namespace Signer

/-- `\uXXXX`. -/
def unit (n : Nat) : Bytes :=
  [byte '\\', byte 'u', Json.hexDigit (n / 4096 % 16), Json.hexDigit (n / 256 % 16),
    Json.hexDigit (n / 16 % 16), Json.hexDigit (n % 16)]

/-- A character in a string, with `ensure_ascii`. -/
def escape (c : Char) : Bytes :=
  if c = '"' then [byte '\\', byte '"']
  else if c = '\\' then [byte '\\', byte '\\']
  else if c = '\n' then [byte '\\', byte 'n']
  else if c = '\r' then [byte '\\', byte 'r']
  else if c = '\t' then [byte '\\', byte 't']
  else if c.toNat = 8 then [byte '\\', byte 'b']
  else if c.toNat = 12 then [byte '\\', byte 'f']
  else if 32 ≤ c.toNat ∧ c.toNat ≤ 126 then [byte c]
  else if c.toNat < 0x10000 then unit c.toNat
  else unit (0xD800 + (c.toNat - 0x10000) / 0x400) ++ unit (0xDC00 + (c.toNat - 0x10000) % 0x400)

def str (s : String) : Bytes := byte '"' :: (s.toList.flatMap escape ++ [byte '"'])

def value : Json.Scalar → Bytes
  | .nat n => Json.nat n
  | .str s => str s

/-- `json.dumps` of a dictionary, with `sort_keys` and compact separators. -/
def dumps (items : List (String × Json.Scalar)) : Bytes :=
  123 :: (Json.separated ((items.insertionSort fun a b => a.1 ≤ b.1).map
    fun item => str item.1 ++ byte ':' :: value item.2) ++ [125])

/-- The bytes the script signs: its dictionary has the fields in the order in
which `ReleaseManifest` declares them. -/
def canonical (m : ReleaseManifest) : Bytes := dumps m.members

end Signer

/-! ## Text both encode alike -/

/-- **Below the delete character** the two escape alike. -/
theorem escape_eq {c : Char} (h : c.toNat < 127) : Signer.escape c = Json.escape (byte c) := by
  have hall : ∀ n < 127, Signer.escape (Char.ofNat n) = Json.escape (byte (Char.ofNat n)) := by
    decide
  have hc := hall c.toNat h
  rwa [Char.ofNat_toNat] at hc

/-- A text of bytes below the delete character. -/
def Unescaped (s : String) : Prop := ∀ b ∈ Json.bytes s, b < 127

instance (s : String) : Decidable (Unescaped s) :=
  List.decidableBAll (fun b => b < 127) (Json.bytes s)

theorem toNat_lt_of_unescaped {s : String} (h : Unescaped s) {c : Char} (hc : c ∈ s.toList) :
    c.toNat < 127 := by
  have hascii := Json.toNat_lt_of_bytes (fun b hb => UInt8.lt_trans (h b hb) (by decide)) hc
  have hbyte := UInt8.lt_iff_toNat_lt.mp (h _ (Json.byte_mem_bytes hc hascii))
  rwa [byte, UInt8.toNat_ofNat_of_lt' (hascii.trans (by decide))] at hbyte

theorem str_eq {s : String} (h : Unescaped s) : Signer.str s = Json.str s := by
  have hsame : ∀ c ∈ s.toList,
      Signer.escape c = (String.utf8EncodeChar c).flatMap Json.escape := fun c hc => by
    have hc := toNat_lt_of_unescaped h hc
    rw [Json.utf8EncodeChar_of_ascii (by omega), List.flatMap_singleton, escape_eq hc]
  unfold Signer.str Json.str
  rw [Json.bytes_eq_flatMap, List.flatMap_assoc, List.flatMap_congr hsame]

/-- All strings of a dictionary are such text. -/
def UnescapedItem (item : String × Json.Scalar) : Prop :=
  Unescaped item.1 ∧ ∀ s, item.2 = .str s → Unescaped s

/-- **A dictionary of such text** is encoded alike, in the order of its keys. -/
theorem dumps_eq {items : List (String × Json.Scalar)} (h : ∀ item ∈ items, UnescapedItem item) :
    Signer.dumps items = Json.document (items.insertionSort fun a b => a.1 ≤ b.1) := by
  have hitem : ∀ item ∈ items.insertionSort (fun a b => a.1 ≤ b.1),
      Signer.str item.1 ++ byte ':' :: Signer.value item.2
        = Json.str item.1 ++ byte ':' :: item.2.encode := fun item hmem => by
    obtain ⟨hkey, hvalue⟩ := h item ((List.mem_insertionSort _).mp hmem)
    rw [str_eq hkey]
    cases hv : item.2 with
    | nat n => rfl
    | str s =>
      show _ ++ byte ':' :: Signer.str s = _
      rw [str_eq (hvalue s hv)]
      rfl
  unfold Signer.dumps Json.document Json.object
  rw [List.map_map, List.map_congr_left hitem]
  rfl

/-! ## What the agent can accept -/

/-- The operating systems `target_triple` tells apart. -/
inductive TargetOs where
  | windows (msvc : Bool)
  | macos
  | linux (musl : Bool)
  | other (os : String)

/-- The build target, as `std` names it. -/
structure BuildTarget where
  arch : String
  os : TargetOs

/-- `target_triple`. -/
def BuildTarget.triple (target : BuildTarget) : String :=
  match target.os with
  | .windows msvc => target.arch ++ "-pc-windows-" ++ if msvc then "msvc" else "gnu"
  | .macos => target.arch ++ "-apple-darwin"
  | .linux musl => target.arch ++ "-unknown-linux-" ++ if musl then "musl" else "gnu"
  | .other os => target.arch ++ "-unknown-" ++ os

/-- A byte of a name `std` has for an architecture or an operating system. -/
def isNameByte (b : UInt8) : Bool := isAlphanumeric b || b == byte '_'

/-- A byte of a semantic version. -/
def isVersionByte (b : UInt8) : Bool :=
  isAlphanumeric b || b == byte '.' || b == byte '-' || b == byte '+'

/-- **What the libraries say of their names**: a semantic version is written
with letters, digits and three marks, and the names of the build target with
letters, digits and the low line. -/
structure Platform.Named (P : Platform) : Prop where
  semver : ∀ version v, P.semver version = .ok v → (Json.bytes version).all isVersionByte = true
  target : ∃ target : BuildTarget, P.targetTriple = target.triple ∧
    (Json.bytes target.arch).all isNameByte = true ∧
    ∀ os, target.os = .other os → (Json.bytes os).all isNameByte = true

/-- **A manifest that waits for its signature**: it passes every check of
`verify_manifest_inner` but for the expiry and the signature. -/
structure SignedManifest.Admissible (P : Platform) (config : Config) (signed : SignedManifest) :
    Prop where
  shape : verifyShape P config signed = .ok ()
  key : ∃ key ∈ config.updates.trustedKeys, key.id = signed.manifest.keyId ∧ key.revoked = false

theorem lt_of_isAlphanumeric : ∀ b : UInt8, isAlphanumeric b = true → b < 127 :=
  Json.forall_byte (p := fun b => isAlphanumeric b = true → b < 127) (by decide +kernel)

theorem isAlphanumeric_of_isLowerHexDigit :
    ∀ b : UInt8, isLowerHexDigit b = true → isAlphanumeric b = true :=
  Json.forall_byte (p := fun b => isLowerHexDigit b = true → isAlphanumeric b = true)
    (by decide +kernel)

theorem unescaped_of_all {s : String} {p : UInt8 → Bool} (h : (Json.bytes s).all p = true)
    (hp : ∀ b, p b = true → isAlphanumeric b = true ∨ b < 127) : Unescaped s := fun b hb =>
  (hp b (List.all_eq_true.mp h b hb)).elim (lt_of_isAlphanumeric b) id

theorem Unescaped.append {s t : String} (hs : Unescaped s) (ht : Unescaped t) :
    Unescaped (s ++ t) := by
  unfold Unescaped
  rw [Json.bytes_append]
  exact fun b hb => (List.mem_append.mp hb).elim (hs b) (ht b)

theorem unescaped_of_name {s : String} (h : (Json.bytes s).all isNameByte = true) : Unescaped s := by
  refine unescaped_of_all h fun b hb => ?_
  rcases Bool.or_eq_true_iff.mp hb with hb | hb
  · exact .inl hb
  · exact .inr (beq_iff_eq.mp hb ▸ by decide)

theorem BuildTarget.unescaped {target : BuildTarget}
    (harch : (Json.bytes target.arch).all isNameByte = true)
    (hos : ∀ os, target.os = .other os → (Json.bytes os).all isNameByte = true) :
    Unescaped target.triple := by
  have harch := unescaped_of_name harch
  unfold BuildTarget.triple
  cases hcase : target.os with
  | windows msvc =>
    refine (harch.append (by decide)).append ?_
    cases msvc <;> decide
  | macos => exact harch.append (by decide)
  | linux musl =>
    refine (harch.append (by decide)).append ?_
    cases musl <;> decide
  | other os => exact (harch.append (by decide)).append (unescaped_of_name (hos os hcase))

theorem unescaped_of_version {s : String} (h : (Json.bytes s).all isVersionByte = true) :
    Unescaped s := by
  refine unescaped_of_all h fun b hb => ?_
  simp only [isVersionByte, Bool.or_eq_true, beq_iff_eq] at hb
  rcases hb with ((hb | rfl) | rfl) | rfl
  · exact .inl hb
  all_goals exact .inr (by decide)

theorem unescaped_of_safeId {id : String} (h : safeId id = true) : Unescaped id := by
  obtain ⟨-, hbytes⟩ := Bool.and_eq_true_iff.mp h
  refine unescaped_of_all hbytes fun b hb => ?_
  simp only [Bool.or_eq_true, beq_iff_eq] at hb
  rcases hb with (hb | rfl) | rfl
  · exact .inl hb
  all_goals exact .inr (by decide)

theorem unescaped_of_hex {s : String} (h : (Json.bytes s).all isLowerHexDigit = true) :
    Unescaped s :=
  unescaped_of_all h fun b hb => .inl (isAlphanumeric_of_isLowerHexDigit b hb)

section Agreement

variable {P : Platform} {config : Config} {signed : SignedManifest}

/-- What is accepted, under a signature or not, is such a manifest. -/
theorem SignedManifest.Admissible.of_accepted {recovery : Bool} {w w' : World}
    (h : verifyManifestInner P config signed recovery w = (.ok (), w')) :
    signed.Admissible P config := by
  have hobserves := verifyManifestInner_observes P (w := w) config signed recovery
  unfold Observes Prog.Leads at hobserves
  rw [h] at hobserves
  obtain ⟨-, hshape, hsigned⟩ := hobserves
  obtain ⟨key, hkey, hid, hrevoked, -⟩ := verifySignature_eq_ok hsigned
  exact ⟨hshape, key, hkey, hid, hrevoked⟩

/-- **Each string of a manifest is encoded alike.** -/
theorem SignedManifest.Admissible.unescaped (hP : P.Named) (h : signed.Admissible P config) :
    ∀ item ∈ signed.manifest.members, UnescapedItem item := by
  obtain ⟨key, hkey, hid, -⟩ := h.key
  obtain ⟨⟨v, hv⟩, hplatform, -, -⟩ := verifyShape_eq_ok h.shape
  obtain ⟨_, hconfig, hshape⟩ := Except.bind_eq_ok.mp h.shape
  obtain ⟨_, -, hshape⟩ := Except.bind_eq_ok.mp hshape
  obtain ⟨_, -, hshape⟩ := Except.bind_eq_ok.mp hshape
  obtain ⟨_, -, hshape⟩ := Except.bind_eq_ok.mp hshape
  obtain ⟨_, -, hshape⟩ := Except.bind_eq_ok.mp hshape
  obtain ⟨_, -, hshape⟩ := Except.bind_eq_ok.mp hshape
  obtain ⟨_, -, hdigest⟩ := Except.bind_eq_ok.mp hshape
  obtain ⟨target, htriple, harch, hos⟩ := hP.target
  have hnat : ∀ {name : String} {n : Nat}, Unescaped name → UnescapedItem (name, .nat n) :=
    fun hname => ⟨hname, fun _ hs => nomatch hs⟩
  have hstr : ∀ {name s : String}, Unescaped name → Unescaped s → UnescapedItem (name, .str s) :=
    fun hname hs => ⟨hname, fun _ heq => Json.Scalar.str.inj heq ▸ hs⟩
  have hkeyId : Unescaped signed.manifest.keyId :=
    hid ▸ unescaped_of_safeId (UpdateConfig.safeId_of_validate hconfig key hkey)
  have hkind : Unescaped signed.manifest.packageKind.asStr := by
    cases signed.manifest.packageKind <;> decide
  intro item hitem
  simp only [ReleaseManifest.members, List.mem_cons, List.not_mem_nil, or_false] at hitem
  rcases hitem with rfl | rfl | rfl | rfl | rfl | rfl | rfl | rfl | rfl
  · exact hnat (by decide)
  · exact hstr (by decide) hkeyId
  · exact hstr (by decide) (unescaped_of_version (hP.semver _ v hv))
  · exact hstr (by decide) (hplatform ▸ htriple ▸ BuildTarget.unescaped harch hos)
  · exact hstr (by decide) hkind
  · exact hnat (by decide)
  · exact hstr (by decide) (unescaped_of_hex (require_eq_ok.mp hdigest).2)
  · exact hnat (by decide)
  · exact hnat (by decide)

theorem insertionSort_members (m : ReleaseManifest) :
    (m.members.insertionSort fun a b => a.1 ≤ b.1) = m.sortedMembers := by
  simp [ReleaseManifest.members, ReleaseManifest.sortedMembers, List.orderedInsert]

/-- **The script signs what the agent verifies.** For every manifest that
`verify_manifest_inner` can accept, its signature and its expiry left aside, the
script's bytes are those of `canonical_manifest`. -/
theorem signer_agrees (hP : P.Named) :
    (∀ config signed recovery w w',
      verifyManifestInner P config signed recovery w = (.ok (), w') →
        signed.Admissible P config) ∧
    ∀ config (signed : SignedManifest) preserveOrder, signed.Admissible P config →
      Signer.canonical signed.manifest = signed.manifest.canonicalManifest preserveOrder := by
  refine ⟨fun _ _ _ _ _ => .of_accepted, fun config signed preserveOrder h => ?_⟩
  rw [Signer.canonical, dumps_eq (h.unescaped hP), insertionSort_members,
    ReleaseManifest.canonicalManifest, ReleaseManifest.sorted_eq]

/-- A character that is not ASCII is encoded differently. -/
example : Signer.str "é" ≠ Json.str "é" := by decide

end Agreement

namespace Sample

theorem platform_named : platform.Named where
  semver version v h := by
    have hall : ∀ entry ∈ versions, (Json.bytes entry.1).all isVersionByte = true := by decide
    have hlookup : ∃ place, versions.lookup version = some place := by
      cases hv : versions.lookup version with
      | some place => exact ⟨place, rfl⟩
      | none =>
        simp only [platform, hv] at h
        cases h
    obtain ⟨place, hplace⟩ := hlookup
    obtain ⟨front, back, hmem, -⟩ := List.lookup_eq_some_iff.mp hplace
    exact hall (version, place) (hmem ▸ List.mem_append_right _ List.mem_cons_self)
  target := ⟨⟨"x86_64", .linux false⟩, rfl, by decide, fun _ h => nomatch h⟩

theorem newer_admissible :
    SignedManifest.Admissible platform (config none) ⟨newer.manifest, newer.signature⟩ where
  shape := by decide +kernel
  key := ⟨⟨"release", publicKey, false⟩, List.mem_cons_self, rfl, rfl⟩

theorem newer_signed :
    Signer.canonical newer.manifest = newer.manifest.canonicalManifest true :=
  (signer_agrees platform_named).2 (config none) ⟨newer.manifest, newer.signature⟩ true
    newer_admissible

end Sample

end Lariska
