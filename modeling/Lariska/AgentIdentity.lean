import Lariska.EndpointQueue
import Lariska.OsRelease
import Lariska.ReplacedFile

/-!
# The identity of an agent

An agent draws its id once and keeps it in `agent_id` under its state directory:
`load_or_create` reads the file if it is there, and otherwise writes a fresh id
to a temporary file, syncs it, renames it and syncs the directory. Each effect
takes one `Turn` of a script, which says how it ends, so a start can fail and be
killed anywhere; between two starts the power can be lost as well.

An id is never seen torn (`no_corrupt_identity`). The one that a start has
created stays the agent's from then on, as long as the file can be looked up
(`identity_stays`): `Path::exists` says that there is no file when it cannot be,
and the next id is then renamed over the first. A temporary file left behind is
never removed, and its name has nothing but the process id in it, so where an
agent always has the same one, as in a container, it never comes to an id any
more (`leftover_blocks`).
-/

namespace Lariska.Identity

open Endpoint (encodeHex)

/-! ## The code -/

inductive IdentityError where
  | io (message : String)
  | corrupt (message : String)
deriving DecidableEq

/-- The state directory: `agent_id`, with `agent_id.tmp-PID` for each process. -/
abbrev StateDir : Type := Replaced Nat (List Char)

structure Turn where
  fate : Fate
  /-- The text of the system error, when there is one. -/
  detail : String
  /-- Sixteen random bytes, where they are drawn. -/
  random : Vector UInt8 16
  /-- The characters that are written when a write is broken off. -/
  written : Nat

structure World where
  dir : StateDir
  script : List Turn

abbrev Act (α : Type) : Type := Prog World IdentityError α

/-- Takes the next turn. -/
def turn : Act Turn := fun w =>
  match w.script with
  | [] => (.killed, w)
  | t :: script =>
    match t.fate with
    | .killed => (.killed, { w with script })
    | _ => (.ok t, { w with script })

/-- An `Io` error with a note on what was being done. -/
def io (note : String) (t : Turn) : IdentityError := .io (note ++ ": " ++ t.detail)

/-- A turn whose effect must succeed. -/
def step (note : String) : Act Turn := do
  let t ← turn
  match t.fate with
  | .failed _ => Prog.fail (io note t)
  | _ => pure t

def update (f : StateDir → StateDir) : Act Unit := Prog.modify fun w => { w with dir := f w.dir }

/-- `write_all` to the temporary file: one that is broken off leaves a part. -/
def writeAll (pid : Nat) (text : List Char) : Act Unit := fun w =>
  match w.script with
  | [] => (.killed, w)
  | t :: script =>
    let part (n : Nat) : World := ⟨w.dir.write pid (· ++ text.take n), script⟩
    match t.fate with
    | .done => (.ok (), part text.length)
    | .failed _ => (.error (io "failed to write identity" t), part t.written)
    | .killed => (.killed, part t.written)

/-- `is_valid_agent_id`. -/
def isValidAgentId (agentId : String) : Bool :=
  match stripPrefix agentId.toList "agent_" with
  | none => false
  | some value => utf8Length value == 32 && (Json.bytes (String.ofList value)).all isHexDigit

/-- `load`. -/
def load : Act String := do
  let t ← step "failed to read identity"
  let w ← Prog.get
  match w.dir.shown with
  | none => Prog.fail (io "failed to read identity" t)
  | some file =>
    let agentId := trimmed file.content
    Prog.ensure (isValidAgentId agentId = true)
      (.corrupt "identity file does not contain a valid agent id")
    pure agentId

/-- `random_hex_id`. -/
def randomHexId (start : String) : Act String := do
  let t ← step "failed to obtain OS randomness"
  pure (start ++ "_" ++ encodeHex t.random.toList)

/-- `generate_agent_id`. -/
def generateAgentId : Act String := randomHexId "agent"

/-- `OpenOptions::create_new`. -/
def createTemp (pid : Nat) : Act Unit := do
  let t ← step "failed to create identity temp file"
  let w ← Prog.get
  Prog.ensure (w.dir.temps pid = none) (io "failed to create identity temp file" t)
  update (·.create pid [])

/-- `fs::rename` of the temporary file. One that fails may have taken effect. -/
def renameTemp (pid : Nat) : Act Unit := do
  let t ← turn
  match t.fate with
  | .failed effective =>
    update fun d => if effective then d.rename pid else d
    Prog.fail (io "failed to persist identity" t)
  | _ => update (·.rename pid)

/-- `persist_atomically`, with `sync_parent_dir`. -/
def persistAtomically (pid : Nat) (agentId : String) : Act Unit := do
  createTemp pid
  writeAll pid agentId.toList
  writeAll pid ['\n']
  let _ ← step "failed to write identity"
  update (·.sync pid)
  renameTemp pid
  let _ ← step "failed to sync identity directory"
  update Replaced.syncDir

/-- `Path::exists`: whether the file can be looked up. -/
def pathExists : Act Bool := do
  let t ← turn
  let w ← Prog.get
  match t.fate with
  | .failed _ => pure false
  | _ => pure w.dir.shown.isSome

/-- `load_or_create`, in the process `pid`. -/
def loadOrCreate (stateDir : String) (pid : Nat) : Act String := do
  let _ ← step ("failed to create state directory " ++ stateDir)
  if ← pathExists then load
  else do
    let agentId ← generateAgentId
    persistAtomically pid agentId
    pure agentId

/-! ## Runs -/

/-- What happens to a state directory. -/
inductive Event where
  /-- An agent starts, alone: it holds the lock of the directory. -/
  | start (pid : Nat) (script : List Turn)
  /-- The power is lost. -/
  | powerLost (kept : Bool) (torn : List Char) (temps : Nat → Option (DiskFile (List Char)))

section Runs

variable (stateDir : String)

/-- How a start ends. -/
def outcome (d : StateDir) : Event → Outcome IdentityError String
  | .start pid script => (loadOrCreate stateDir pid ⟨d, script⟩).1
  | .powerLost _ _ _ => .killed

/-- The state directory after an event. -/
def next (d : StateDir) : Event → StateDir
  | .start pid script => (loadOrCreate stateDir pid ⟨d, script⟩).2.dir
  | .powerLost kept torn temps => d.lose kept torn temps

/-- What has happened to a state directory that was like this at first. -/
abbrev Lived (init : StateDir → Prop) : Past StateDir Event → StateDir → Prop :=
  History init fun _ d e d' => next stateDir d e = d'

end Runs

/-! ## Valid ids -/

/-- What a program finds to hold of the characters of a text. -/
theorem forall_mem_toList {p : Char → Prop} [DecidablePred p] {text : String}
    (h : text.toList.all (fun c => decide (p c)) = true) : ∀ c ∈ text.toList, p c :=
  fun c hc => of_decide_eq_true (List.all_eq_true.mp h c hc)

theorem of_mem_hex : ∀ c ∈ "0123456789abcdef".toList,
    isHexDigit (Json.byte c) = true ∧ c.toNat < 128 ∧ c.utf8Size = 1 ∧ isWhitespace c = false :=
  forall_mem_toList rfl

theorem hexDigit_mem (n : Nat) : Endpoint.hexDigit n ∈ "0123456789abcdef".toList := by
  unfold Endpoint.hexDigit
  rw [List.getD_eq_getElem?_getD]
  cases hn : "0123456789abcdef".toList[n]? with
  | none => exact List.mem_cons_self
  | some c => exact List.mem_of_getElem? hn

theorem mem_hex_of_mem_encodeHex {bytes : Bytes} {c : Char} (h : c ∈ (encodeHex bytes).toList) :
    c ∈ "0123456789abcdef".toList := by
  unfold encodeHex at h
  rw [String.toList_ofList] at h
  obtain ⟨b, -, hc⟩ := List.mem_flatMap.mp h
  rcases List.mem_cons.mp hc with rfl | hc
  · exact hexDigit_mem _
  · exact List.mem_singleton.mp hc ▸ hexDigit_mem _

theorem length_encodeHex (bytes : Bytes) : (encodeHex bytes).toList.length = 2 * bytes.length := by
  unfold encodeHex
  rw [String.toList_ofList, List.length_flatMap]
  simp [Nat.mul_comm]

/-- The ids that are drawn. -/
def drawn (random : Vector UInt8 16) : String := "agent" ++ "_" ++ encodeHex random.toList

variable (random : Vector UInt8 16)

theorem drawn_toList :
    (drawn random).toList = "agent_".toList ++ (encodeHex random.toList).toList := by
  unfold drawn
  rw [String.toList_append]
  rfl

theorem isValidAgentId_drawn : isValidAgentId (drawn random) = true := by
  have hstrip : stripPrefix (drawn random).toList "agent_"
      = some (encodeHex random.toList).toList := by
    rw [drawn_toList]
    simp [stripPrefix, List.dropPrefix?]
  have hlength : utf8Length (encodeHex random.toList).toList = 32 := by
    unfold utf8Length
    rw [List.map_congr_left fun c hc => (of_mem_hex c (mem_hex_of_mem_encodeHex hc)).2.2.1,
      List.map_const', List.sum_replicate, length_encodeHex, Vector.length_toList]
    rfl
  unfold isValidAgentId
  rw [hstrip]
  show (utf8Length _ == 32 && (Json.bytes (String.ofList _)).all isHexDigit) = true
  rw [hlength, String.ofList_toList, Json.bytes_eq_flatMap]
  refine List.all_eq_true.mpr fun b hb => ?_
  obtain ⟨c, hc, hb⟩ := List.mem_flatMap.mp hb
  obtain ⟨hhex, hascii, -, -⟩ := of_mem_hex c (mem_hex_of_mem_encodeHex hc)
  rw [Json.utf8EncodeChar_of_ascii hascii, List.mem_singleton] at hb
  exact hb ▸ hhex

/-- What is written of an id is read as this id. -/
theorem trimmed_drawn : trimmed ((drawn random).toList ++ ['\n']) = drawn random := by
  have hblank : ∀ c ∈ (drawn random).toList, isWhitespace c = false := by
    intro c hc
    rw [drawn_toList] at hc
    rcases List.mem_append.mp hc with hc | hc
    · have hstrip : ∀ c ∈ "agent_".toList, isWhitespace c = false := forall_mem_toList rfl
      exact hstrip c hc
    · exact (of_mem_hex c (mem_hex_of_mem_encodeHex hc)).2.2.2
  unfold trimmed
  have hpadded := @trim_padded [] (drawn random).toList ['\n'] (fun _ h => (nomatch h))
    (fun c hc => List.mem_singleton.mp hc ▸ rfl)
  rw [List.nil_append] at hpadded
  rw [hpadded, trim_of_ends (fun c hc => hblank c (List.mem_of_mem_head? hc))
    (fun c hc => hblank c (List.mem_of_mem_getLast? hc)), String.ofList_toList]

/-! ## What a start does -/

/-- The file an id is in. -/
def identityFile (agentId : String) : DiskFile (List Char) := ⟨agentId.toList ++ ['\n'], true⟩

/-- What a start that writes `agentId` can leave when it ends before it is done. -/
structure Partway (d : StateDir) (agentId : String) (d' : StateDir) : Prop where
  stored : d'.stored = d.stored
  shown : d'.shown = d.shown ∨ d'.shown = some (identityFile agentId)

/-- The temporary file of a start has this content, and the names show what they
did. -/
structure Holds (d : StateDir) (pid : Nat) (file : DiskFile (List Char)) (d' : StateDir) :
    Prop where
  shown : d'.shown = d.shown
  stored : d'.stored = d.stored
  temp : d'.temps pid = some file

def IdentityError.IsIo (e : IdentityError) : Prop := ∃ message, e = .io message

theorem isIo_io (note : String) (t : Turn) : (io note t).IsIo := ⟨_, rfl⟩

variable {w : World}

theorem turn_leads (w : World) :
    turn.Leads w (fun t w' => w'.dir = w.dir ∧ w.script = t :: w'.script) (fun _ _ => False)
      (fun w' => w'.dir = w.dir) := by
  unfold Prog.Leads turn
  rcases w with ⟨dir, _ | ⟨⟨fate, detail, random, written⟩, script⟩⟩
  · rfl
  · cases fate with
    | killed => rfl
    | _ => exact ⟨rfl, rfl⟩

/-- A step changes nothing. -/
theorem step_leads (note : String) (w : World) :
    (step note).Leads w (fun t w' => w'.dir = w.dir ∧ w.script = t :: w'.script)
      (fun e w' => e.IsIo ∧ w'.dir = w.dir) (fun w' => w'.dir = w.dir) := by
  refine Prog.leads_bind.mpr ((turn_leads w).mono ?_ (fun _ _ h => h.elim) (fun _ h => h))
  intro t w' h
  cases t.fate with
  | failed effective => exact (Prog.leads_fail _).mpr ⟨isIo_io note t, h.1⟩
  | done => exact (Prog.leads_pure t).mpr h
  | killed => exact (Prog.leads_pure t).mpr h

theorem update_leads (f : StateDir → StateDir) (w : World) {E : IdentityError → World → Prop}
    {D : World → Prop} : (update f).Leads w (fun _ w' => w'.dir = f w.dir) E D :=
  Prog.leads_modify.mpr rfl

variable {d : StateDir} {pid : Nat} {agentId : String} {file : DiskFile (List Char)}

theorem Holds.partway {d' : StateDir} (h : Holds d pid file d') : Partway d agentId d' :=
  ⟨h.stored, .inl h.shown⟩

theorem createTemp_leads (pid : Nat) (w : World) :
    (createTemp pid).Leads w
      (fun _ w' => w.dir.temps pid = none ∧ Holds w.dir pid ⟨[], false⟩ w'.dir)
      (fun e w' => e.IsIo ∧ w'.dir = w.dir) (fun w' => w'.dir = w.dir) := by
  refine Prog.leads_bind.mpr ((step_leads _ w).imp fun t w₁ h => ?_)
  refine Prog.leads_bind.mpr (Prog.leads_get.mpr (Prog.leads_bind.mpr ?_))
  refine Prog.leads_ensure.mpr ⟨fun hnone => ?_, fun _ => ⟨isIo_io _ t, h.1⟩⟩
  refine (update_leads _ w₁).imp fun _ w₂ hdir => ?_
  rw [h.1] at hnone hdir
  exact ⟨hnone, hdir ▸ ⟨rfl, rfl, Replaced.create_temps []⟩⟩

theorem writeAll_leads (text : List Char) (h : Holds d pid file w.dir) :
    (writeAll pid text).Leads w (fun _ w' => Holds d pid ⟨file.content ++ text, false⟩ w'.dir)
      (fun e w' => e.IsIo ∧ Partway d agentId w'.dir) (fun w' => Partway d agentId w'.dir) := by
  have hwritten : ∀ part, Holds d pid ⟨file.content ++ part, false⟩ (w.dir.write pid (· ++ part)) :=
    fun part => ⟨h.shown, h.stored, Replaced.alter_temps h.temp _⟩
  unfold Prog.Leads writeAll
  rcases w with ⟨dir, _ | ⟨⟨fate, detail, random, written⟩, script⟩⟩
  · exact h.partway
  · cases fate with
    | done =>
      have hall := hwritten (text.take text.length)
      rw [List.take_length] at hall
      show Holds d pid _ (dir.write pid (· ++ text.take text.length))
      rw [List.take_length]
      exact hall
    | failed effective => exact ⟨isIo_io _ _, (hwritten _).partway⟩
    | killed => exact (hwritten _).partway

theorem renameTemp_leads (h : Holds d pid (identityFile agentId) w.dir) :
    (renameTemp pid).Leads w
      (fun _ w' => w'.dir.stored = d.stored ∧ w'.dir.shown = some (identityFile agentId))
      (fun e w' => e.IsIo ∧ Partway d agentId w'.dir) (fun w' => Partway d agentId w'.dir) := by
  have hrenamed : (w.dir.rename pid).stored = d.stored
      ∧ (w.dir.rename pid).shown = some (identityFile agentId) := by
    rw [Replaced.rename_eq h.temp]
    exact ⟨h.stored, rfl⟩
  refine Prog.leads_bind.mpr ((turn_leads w).mono ?_ (fun _ _ hf => hf.elim) ?_)
  · intro t w₁ ht
    cases t.fate with
    | failed effective =>
      refine Prog.leads_bind.mpr ((update_leads _ w₁).imp fun _ w₂ hdir => ?_)
      refine (Prog.leads_fail _).mpr ⟨isIo_io _ t, ?_⟩
      rw [hdir, ht.1]
      cases effective with
      | true => exact ⟨hrenamed.1, .inr hrenamed.2⟩
      | false => exact h.partway
    | done =>
      refine (update_leads _ w₁).imp fun _ w₂ hdir => ?_
      rw [hdir, ht.1]
      exact hrenamed
    | killed =>
      refine (update_leads _ w₁).imp fun _ w₂ hdir => ?_
      rw [hdir, ht.1]
      exact hrenamed
  · intro w' hdir
    exact hdir ▸ h.partway

theorem persistAtomically_leads (pid : Nat) (agentId : String) (w : World) :
    (persistAtomically pid agentId).Leads w
      (fun _ w' => w.dir.temps pid = none ∧ w'.dir.shown = some (identityFile agentId)
        ∧ w'.dir.stored = w'.dir.shown)
      (fun e w' => e.IsIo ∧ (w'.dir = w.dir ∨
        w.dir.temps pid = none ∧ Partway w.dir agentId w'.dir))
      (fun w' => w'.dir = w.dir ∨ w.dir.temps pid = none ∧ Partway w.dir agentId w'.dir) := by
  refine Prog.leads_bind.mpr ((createTemp_leads pid w).mono ?_ (fun e w' h => ⟨h.1, .inl h.2⟩)
    fun w' h => .inl h)
  rintro - w₁ ⟨hnone, h₁⟩
  suffices hrest : Prog.Leads (do
      writeAll pid agentId.toList
      writeAll pid ['\n']
      let _ ← step "failed to write identity"
      update (·.sync pid)
      renameTemp pid
      let _ ← step "failed to sync identity directory"
      update Replaced.syncDir) w₁
      (fun _ w' => w'.dir.shown = some (identityFile agentId) ∧ w'.dir.stored = w'.dir.shown)
      (fun e w' => e.IsIo ∧ Partway w.dir agentId w'.dir)
      (fun w' => Partway w.dir agentId w'.dir) from
    hrest.mono (fun _ _ h => ⟨hnone, h⟩) (fun _ _ h => ⟨h.1, .inr ⟨hnone, h.2⟩⟩)
      fun _ h => .inr ⟨hnone, h⟩
  refine Prog.leads_bind.mpr ((writeAll_leads _ h₁).imp fun _ w₂ h₂ => ?_)
  refine Prog.leads_bind.mpr ((writeAll_leads _ h₂).imp fun _ w₃ h₃ => ?_)
  refine Prog.leads_bind.mpr ((step_leads _ w₃).mono ?_
    (fun e w' h => ⟨h.1, h.2 ▸ h₃.partway⟩) (fun w' h => h ▸ h₃.partway))
  intro t w₄ h₄
  refine Prog.leads_bind.mpr ((update_leads _ w₄).imp fun _ w₅ h₅ => ?_)
  have hsynced : Holds w.dir pid (identityFile agentId) w₅.dir := by
    rw [h₅, h₄.1]
    exact ⟨h₃.shown, h₃.stored, Replaced.alter_temps h₃.temp _⟩
  refine Prog.leads_bind.mpr ((renameTemp_leads hsynced).imp fun _ w₆ h₆ => ?_)
  have hrenamed : Partway w.dir agentId w₆.dir := ⟨h₆.1, .inr h₆.2⟩
  refine Prog.leads_bind.mpr ((step_leads _ w₆).mono ?_
    (fun e w' h => ⟨h.1, h.2 ▸ hrenamed⟩) (fun w' h => h ▸ hrenamed))
  intro t w₇ h₇
  refine (update_leads _ w₇).imp fun _ w₈ h₈ => ?_
  rw [h₈, h₇.1]
  exact ⟨h₆.2, rfl⟩

theorem load_leads (w : World) :
    load.Leads w
      (fun agentId w' => w'.dir = w.dir ∧ isValidAgentId agentId = true ∧
        ∃ file ∈ w.dir.shown, trimmed file.content = agentId)
      (fun e w' => w'.dir = w.dir ∧ (e.IsIo ∨
        ∃ file ∈ w.dir.shown, isValidAgentId (trimmed file.content) = false))
      (fun w' => w'.dir = w.dir) := by
  refine Prog.leads_bind.mpr ((step_leads _ w).mono ?_ (fun e w' h => ⟨h.2, .inl h.1⟩)
    (fun w' h => h))
  intro t w₁ h
  refine Prog.leads_bind.mpr (Prog.leads_get.mpr ?_)
  cases hshown : w₁.dir.shown with
  | none => exact (Prog.leads_fail _).mpr ⟨h.1, .inl (isIo_io _ t)⟩
  | some file =>
    have hfile : file ∈ w.dir.shown := h.1 ▸ hshown
    refine Prog.leads_bind.mpr (Prog.leads_ensure.mpr ⟨fun hvalid => ?_, fun hinvalid => ?_⟩)
    · exact (Prog.leads_pure _).mpr ⟨h.1, hvalid, file, hfile, rfl⟩
    · exact ⟨h.1, .inr ⟨file, hfile, Bool.eq_false_of_not_eq_true hinvalid⟩⟩

/-- The file cannot be looked up. -/
def hidesFile : List Turn → Bool
  | _ :: t :: _ => match t.fate with
    | .failed _ => true
    | _ => false
  | _ => false

theorem pathExists_leads (before : Turn) (w : World) :
    pathExists.Leads w
      (fun found w' => w'.dir = w.dir ∧
        (found = false → w.dir.shown = none ∨ hidesFile (before :: w.script) = true))
      (fun _ _ => False) (fun w' => w'.dir = w.dir) := by
  refine Prog.leads_bind.mpr ((turn_leads w).imp fun t w₁ h => ?_)
  refine Prog.leads_bind.mpr (Prog.leads_get.mpr ?_)
  rw [h.2]
  have hlooked : w₁.dir.shown.isSome = false → w.dir.shown = none := fun hnone =>
    h.1 ▸ Option.isSome_eq_false_iff.mp hnone |> Option.isNone_iff_eq_none.mp
  cases hfate : t.fate with
  | failed effective =>
    refine (Prog.leads_pure _).mpr ⟨h.1, fun _ => .inr ?_⟩
    show (match t.fate with | .failed _ => true | _ => false) = true
    rw [hfate]
  | done => exact (Prog.leads_pure _).mpr ⟨h.1, fun hnone => .inl (hlooked hnone)⟩
  | killed => exact (Prog.leads_pure _).mpr ⟨h.1, fun hnone => .inl (hlooked hnone)⟩

theorem generateAgentId_leads (w : World) :
    generateAgentId.Leads w (fun agentId w' => w'.dir = w.dir ∧ ∃ random, agentId = drawn random)
      (fun e w' => e.IsIo ∧ w'.dir = w.dir) (fun w' => w'.dir = w.dir) :=
  Prog.leads_bind.mpr ((step_leads _ w).imp fun t _ h =>
    (Prog.leads_pure _).mpr ⟨h.1, t.random, rfl⟩)

/-- The run was killed, or has failed with an `Io` error. -/
def Broken : Outcome IdentityError String → Prop
  | .ok _ => False
  | .error e => e.IsIo
  | .killed => True

/-- **What a start does**: it reads the id that is there, or writes one where it
sees none. -/
inductive Started (d : StateDir) (pid : Nat) (hidden : Bool) :
    Outcome IdentityError String → StateDir → Prop
  | read {file : DiskFile (List Char)} : file ∈ d.shown →
      isValidAgentId (trimmed file.content) = true →
      Started d pid hidden (.ok (trimmed file.content)) d
  | corrupt {file : DiskFile (List Char)} {e : IdentityError} : file ∈ d.shown →
      isValidAgentId (trimmed file.content) = false → Started d pid hidden (.error e) d
  | stopped {o : Outcome IdentityError String} : Broken o → Started d pid hidden o d
  | created (random : Vector UInt8 16) {d' : StateDir} : d.shown = none ∨ hidden = true →
      d.temps pid = none → d'.shown = some (identityFile (drawn random)) → d'.stored = d'.shown →
      Started d pid hidden (.ok (drawn random)) d'
  | partway (random : Vector UInt8 16) {o : Outcome IdentityError String} {d' : StateDir} :
      d.shown = none ∨ hidden = true → d.temps pid = none → Broken o →
      Partway d (drawn random) d' → Started d pid hidden o d'

theorem loadOrCreate_started (stateDir : String) (pid : Nat) (d : StateDir) (script : List Turn) :
    Started d pid (hidesFile script) (loadOrCreate stateDir pid ⟨d, script⟩).1
      (loadOrCreate stateDir pid ⟨d, script⟩).2.dir := by
  refine Prog.Leads.ends (R := fun o (w' : World) => Started d pid (hidesFile script) o w'.dir) ?_
  have hkilled : ∀ w' : World, w'.dir = d → Started d pid (hidesFile script) .killed w'.dir :=
    fun w' h => h ▸ .stopped trivial
  have hfailed : ∀ (e : IdentityError) (w' : World), e.IsIo → w'.dir = d →
      Started d pid (hidesFile script) (.error e) w'.dir := fun e w' he h => h ▸ .stopped he
  refine Prog.leads_bind.mpr ((step_leads _ _).mono ?_ (fun e w' h => hfailed e w' h.1 h.2) hkilled)
  rintro t w₁ ⟨h₁, hscript⟩
  refine Prog.leads_bind.mpr ((pathExists_leads t w₁).mono ?_ (fun _ _ h => h.elim)
    fun w' h => hkilled w' (Eq.trans h h₁))
  rintro found w₂ ⟨h₂, hmissing⟩
  rw [← hscript] at hmissing
  rw [h₁] at h₂ hmissing
  cases found with
  | true =>
    refine (load_leads w₂).mono ?_ ?_ fun w' h => hkilled w' (Eq.trans h h₂)
    · rintro agentId w₃ ⟨h₃, hvalid, file, hfile, rfl⟩
      rw [h₂] at h₃ hfile
      exact h₃ ▸ .read hfile hvalid
    · rintro e w₃ ⟨h₃, he | ⟨file, hfile, hinvalid⟩⟩
      · exact hfailed e w₃ he (h₃.trans h₂)
      · rw [h₂] at h₃ hfile
        exact h₃ ▸ .corrupt hfile hinvalid
  | false =>
    refine Prog.leads_bind.mpr ((generateAgentId_leads w₂).mono ?_
      (fun e w' h => hfailed e w' h.1 (h.2.trans h₂)) fun w' h => hkilled w' (Eq.trans h h₂))
    rintro agentId w₃ ⟨h₃, random, rfl⟩
    rw [h₂] at h₃
    refine Prog.leads_bind.mpr ((persistAtomically_leads pid _ w₃).mono ?_ ?_ ?_)
    · rintro - w₄ ⟨hnone, hshown, hstored⟩
      rw [h₃] at hnone
      exact (Prog.leads_pure _).mpr (.created random (hmissing rfl) hnone hshown hstored)
    · rintro e w₄ ⟨he, hsame | ⟨hnone, hpart⟩⟩
      · exact hfailed e w₄ he (hsame.trans h₃)
      · rw [h₃] at hnone hpart
        exact .partway random (hmissing rfl) hnone he hpart
    · rintro w₄ (hsame | ⟨hnone, hpart⟩)
      · exact hkilled w₄ (hsame.trans h₃)
      · rw [h₃] at hnone hpart
        exact .partway random (hmissing rfl) hnone trivial hpart

/-! ## Ids are never torn -/

/-- A file with a valid id. -/
def ValidText (text : List Char) : Prop := isValidAgentId (trimmed text) = true

theorem validText_identityFile (random : Vector UInt8 16) :
    ValidText (identityFile (drawn random)).content := by
  show isValidAgentId (trimmed ((drawn random).toList ++ ['\n'])) = true
  rw [trimmed_drawn]
  exact isValidAgentId_drawn random

variable {stateDir : String} {past earlier : Past StateDir Event} {d σ d' : StateDir} {e : Event}
variable {agentId : String} {pid : Nat} {hidden : Bool}
variable {o : Outcome IdentityError String}

/-- The names show whole files with valid ids after a start as before. -/
theorem Started.whole (h : Started d pid hidden o d') (hd : d.Whole ValidText) :
    d'.Whole ValidText := by
  have hfile : ∀ random, ∀ file ∈ some (identityFile (drawn random)),
      file.synced = true ∧ ValidText file.content := fun random file hfile =>
    Option.mem_some.mp hfile ▸ ⟨rfl, validText_identityFile random⟩
  cases h with
  | read | corrupt | stopped => exact hd
  | created random hmissing htemp hshown hstored =>
    exact ⟨hshown ▸ hfile random, hstored ▸ hshown ▸ hfile random⟩
  | partway random hmissing htemp ho hpart =>
    refine ⟨?_, hpart.stored ▸ hd.stored⟩
    rcases hpart.shown with hshown | hshown
    · exact hshown ▸ hd.shown
    · exact hshown ▸ hfile random

theorem lived_whole (h : Lived stateDir (Replaced.Whole ValidText) past d) : d.Whole ValidText := by
  refine h.invariant' (I := fun _ d => d.Whole ValidText) (fun _ hd => hd) ?_
  rintro past d e d' hd rfl
  cases e with
  | start pid script => exact (loadOrCreate_started stateDir pid d script).whole hd
  | powerLost kept torn temps => exact hd.lose kept torn temps

/-- A start that ends well ends with a valid id, and fails for no fault of the
file. -/
def Sound : Outcome IdentityError String → Prop
  | .ok agentId => isValidAgentId agentId = true
  | .error e => e.IsIo
  | .killed => True

theorem sound_of_broken (h : Broken o) : Sound o := by
  cases o with
  | ok agentId => exact h.elim
  | error e => exact h
  | killed => trivial

theorem Started.sound (h : Started d pid hidden o d') (hd : d.Whole ValidText) : Sound o := by
  cases h with
  | read hfile hvalid => exact hvalid
  | corrupt hfile hinvalid =>
    have hvalid : isValidAgentId _ = true := (hd.shown _ hfile).2
    rw [hinvalid] at hvalid
    cases hvalid
  | stopped ho => exact sound_of_broken ho
  | created random hmissing htemp hshown hstored => exact isValidAgentId_drawn random
  | partway random hmissing htemp ho hpart => exact sound_of_broken ho

/-- **An id is never seen torn**: whatever starts are killed where, and however
often the power is lost, no start finds an id that is not valid. -/
theorem no_corrupt_identity (h : Lived stateDir (Replaced.Whole ValidText) past d) (e : Event) :
    (∀ message, outcome stateDir d e ≠ .error (.corrupt message)) ∧
      ∀ agentId, outcome stateDir d e = .ok agentId → isValidAgentId agentId = true := by
  cases e with
  | powerLost kept torn temps => exact ⟨fun _ h => (nomatch h), fun _ h => (nomatch h)⟩
  | start pid script =>
    have hsound : Sound (outcome stateDir d (.start pid script)) :=
      (loadOrCreate_started stateDir pid d script).sound (lived_whole h)
    constructor
    · intro message hcorrupt
      rw [hcorrupt] at hsound
      obtain ⟨message', hio⟩ := hsound
      cases hio
    · intro agentId hok
      rw [hok] at hsound
      exact hsound

/-! ## The id stays -/

/-- A start that looks for the file finds it. -/
def Event.Sees (d : StateDir) : Event → Prop
  | .start _ script => d.shown ≠ none → hidesFile script = false
  | .powerLost _ _ _ => True

/-- No power loss that drops what was not synced. -/
def Event.Keeps : Event → Prop
  | .start _ _ => True
  | .powerLost kept _ _ => kept = true

/-- The name shows this id. -/
def Named (d : StateDir) (agentId : String) : Prop :=
  ∃ file ∈ d.shown, trimmed file.content = agentId

theorem named_identityFile {random : Vector UInt8 16}
    (h : d.shown = some (identityFile (drawn random))) : Named d (drawn random) :=
  ⟨_, h, trimmed_drawn random⟩

/-- After a start that returns an id the name shows it; it will stay if there was
none before, or the one that was there would have. -/
theorem Started.named (h : Started d pid hidden (.ok agentId) d') :
    Named d' agentId ∧ (d.shown = none ∨ d.Settled → d'.Settled) := by
  cases h with
  | read hfile hvalid =>
    refine ⟨⟨_, hfile, rfl⟩, fun hsettled => hsettled.resolve_left fun hnone => ?_⟩
    rw [hnone] at hfile
    cases hfile
  | stopped ho => exact ho.elim
  | created random hmissing htemp hshown hstored =>
    exact ⟨named_identityFile hshown, fun _ => hstored⟩
  | partway random hmissing htemp ho hpart => exact ho.elim

/-- A start that sees an id leaves it, and returns no other. -/
theorem Started.keeps (h : Started d pid hidden o d') (hnamed : Named d agentId)
    (hsees : hidden = false) : d' = d ∧ ∀ agentId', o = .ok agentId' → agentId' = agentId := by
  obtain ⟨file, hfile, hid⟩ := hnamed
  have hthere : ¬ (d.shown = none ∨ hidden = true) := by
    rintro (hnone | hhidden)
    · rw [hnone] at hfile
      cases hfile
    · rw [hsees] at hhidden
      cases hhidden
  cases h with
  | read hfile' hvalid =>
    refine ⟨rfl, fun agentId' hok => ?_⟩
    cases hok
    rw [← hid, Option.mem_unique hfile' hfile]
  | corrupt hfile' hinvalid => exact ⟨rfl, fun _ hok => (nomatch hok)⟩
  | stopped ho => exact ⟨rfl, fun _ hok => absurd ho (by rw [hok]; exact id)⟩
  | created random hmissing htemp hshown hstored => exact absurd hmissing hthere
  | partway random hmissing htemp ho hpart => exact absurd hmissing hthere

theorem Named.next (hnamed : Named d agentId) (hd : d.Whole ValidText) (hsees : e.Sees d)
    (hkeeps : d.Settled ∨ e.Keeps) :
    Named (next stateDir d e) agentId ∧ (d.Settled → (next stateDir d e).Settled) ∧
      ∀ agentId', outcome stateDir d e = .ok agentId' → agentId' = agentId := by
  cases e with
  | start pid script =>
    have hthere : d.shown ≠ none := by
      obtain ⟨file, hfile, -⟩ := hnamed
      exact fun hnone => by rw [hnone] at hfile; cases hfile
    obtain ⟨hsame, hok⟩ := (loadOrCreate_started stateDir pid d script).keeps hnamed (hsees hthere)
    rw [show next stateDir d (.start pid script) = d from hsame]
    exact ⟨hnamed, fun h => h, hok⟩
  | powerLost kept torn temps =>
    have hshown : (d.lose kept torn temps).shown = d.shown := by
      rcases hkeeps with hsettled | hkept
      · exact hsettled.lose hd kept torn temps
      · rw [hd.lose_eq, show kept = true from hkept]
        rfl
    refine ⟨?_, fun _ => rfl, fun _ hok => (nomatch hok)⟩
    show Named (d.lose kept torn temps) agentId
    unfold Named
    rw [hshown]
    exact hnamed

/-- **The identity of an agent stays**: once a start has created and returned an
id, every later start that returns one returns this, whatever starts are killed
where and however often the power is lost, as long as the file is found when it
is looked for. For an id that a start has read the same holds where the
directory was synced since the file was renamed, or no power loss drops the
rename. -/
theorem identity_stays (later : Past StateDir Event)
    (h : Lived stateDir (Replaced.Whole ValidText) past d)
    (hpast : past = later ++ (e, σ) :: earlier) (hok : outcome stateDir σ e = .ok agentId)
    (hsees : ∀ x ∈ later, x.1.Sees x.2)
    (hdurable : σ.shown = none ∨ σ.Settled ∨ ∀ x ∈ later, x.1.Keeps) :
    Named d agentId ∧ ∀ x ∈ later, ∀ agentId', outcome stateDir x.2 x.1 = .ok agentId' →
      agentId' = agentId := by
  -- what is carried along: the name shows the id, and it is settled if it was
  suffices hall : Named d agentId ∧ (σ.shown = none ∨ σ.Settled → d.Settled) ∧
      ∀ x ∈ later, ∀ agentId', outcome stateDir x.2 x.1 = .ok agentId' → agentId' = agentId from
    ⟨hall.1, hall.2.2⟩
  induction h generalizing later with
  | start hd =>
    exact absurd hpast.symm (List.append_ne_nil_of_right_ne_nil later (List.cons_ne_nil _ _))
  | @next past s d' e' h' hstep ih =>
    subst hstep
    cases later with
    | nil =>
      obtain ⟨hhead, rfl⟩ := List.cons.inj hpast
      obtain ⟨rfl, rfl⟩ := Prod.mk.inj hhead
      cases e' with
      | powerLost kept torn temps => cases hok
      | start pid script =>
        have hstarted := loadOrCreate_started stateDir pid s script
        rw [show (loadOrCreate stateDir pid ⟨s, script⟩).1 = .ok agentId from hok] at hstarted
        exact ⟨hstarted.named.1, hstarted.named.2, fun _ hx => (nomatch hx)⟩
    | cons x later =>
      obtain ⟨rfl, rfl⟩ := List.cons.inj hpast
      obtain ⟨hnamed, hsettled, hlater⟩ := ih later rfl
        (fun x hx => hsees x (List.mem_cons_of_mem _ hx))
        (hdurable.imp_right (Or.imp_right fun hk x hx => hk x (List.mem_cons_of_mem _ hx)))
      have hkeeps : s.Settled ∨ e'.Keeps := by
        rcases hdurable with hnone | hset | hk
        · exact .inl (hsettled (.inl hnone))
        · exact .inl (hsettled (.inr hset))
        · exact .inr (hk _ List.mem_cons_self)
      obtain ⟨hnamed', hsettled', hok'⟩ :=
        hnamed.next (lived_whole h') (hsees _ List.mem_cons_self) hkeeps
      refine ⟨hnamed', fun hfirst => hsettled' (hsettled hfirst), fun x hx => ?_⟩
      rcases List.mem_cons.mp hx with rfl | hx
      · exact hok'
      · exact hlater x hx

/-! ## A temporary file that is left behind -/

/-- The process that starts has this id. -/
def Event.RunsAs (pid : Nat) : Event → Prop
  | .start pid' _ => pid' = pid
  | .powerLost _ _ _ => False

/-- With a temporary file of its process in the way, a start comes to no id and
does nothing. -/
theorem Started.blocked (h : Started d pid hidden o d') (hshown : d.shown = none)
    (htemp : d.temps pid ≠ none) : d' = d ∧ Broken o := by
  have hno : ∀ file, file ∉ d.shown := fun file hfile => by
    rw [hshown] at hfile
    cases hfile
  cases h with
  | read hfile hvalid => exact absurd hfile (hno _)
  | corrupt hfile hinvalid => exact absurd hfile (hno _)
  | stopped ho => exact ⟨rfl, ho⟩
  | created random hmissing hnone hshown hstored => exact absurd hnone htemp
  | partway random hmissing hnone ho hpart => exact absurd hnone htemp

/-- **A temporary file that is left behind blocks its process id for good**: from
a directory with no id and such a file, an agent that always starts as the same
process never comes to an id. -/
theorem leftover_blocks (pid : Nat) (hshown : σ.shown = none) (htemp : σ.temps pid ≠ none)
    (h : Lived stateDir (· = σ) past d) (hpid : ∀ x ∈ past, x.1.RunsAs pid) :
    d = σ ∧ ∀ x ∈ past, ∀ agentId, outcome stateDir x.2 x.1 ≠ .ok agentId := by
  induction h with
  | start hd => exact ⟨hd, fun _ hx => (nomatch hx)⟩
  | @next past s d' e h' hstep ih =>
    obtain ⟨rfl, hpast⟩ := ih fun x hx => hpid x (List.mem_cons_of_mem _ hx)
    cases e with
    | powerLost kept torn temps => exact (hpid _ List.mem_cons_self).elim
    | start pid' script =>
      obtain rfl : pid' = pid := hpid _ List.mem_cons_self
      obtain ⟨hsame, hbroken⟩ :=
        (loadOrCreate_started stateDir pid' s script).blocked hshown htemp
      refine ⟨hstep.symm.trans hsame, fun x hx => ?_⟩
      rcases List.mem_cons.mp hx with rfl | hx
      · intro agentId hok
        rw [show (loadOrCreate stateDir pid' ⟨s, script⟩).1 = .ok agentId from hok] at hbroken
        exact hbroken
      · exact hpast x hx

namespace Sample

def sixteen (byte : UInt8) : Vector UInt8 16 := Vector.replicate 16 byte

def turnOf (fate : Fate) (byte : UInt8) : Turn := ⟨fate, "os error", sixteen byte, 7⟩

/-- Turns without a fault. -/
def calm (n : Nat) (byte : UInt8) : List Turn := List.replicate n (turnOf .done byte)

def fresh : StateDir := ⟨none, none, fun _ => none⟩

theorem whole_fresh : fresh.Whole ValidText := ⟨fun _ h => (nomatch h), fun _ h => (nomatch h)⟩

def create : Event := .start 1 (calm 9 0)
def dropUnsynced : Event := .powerLost false [] fun _ => none
def restart : Event := .start 2 (calm 9 1)

/-- The directory after each of these, from the first. -/
def after (events : List Event) : StateDir := events.foldl (next "/state") fresh

theorem lived_after (events : List Event) :
    ∃ past, Lived "/state" (Replaced.Whole ValidText) past (after events) := by
  induction events using List.reverseRecOn with
  | nil => exact ⟨[], .start whole_fresh⟩
  | append_singleton events e ih =>
    obtain ⟨past, h⟩ := ih
    refine ⟨_, .next h (e := e) ?_⟩
    unfold after
    rw [List.foldl_append]
    rfl

/-- An id is half written, synced at no time, and the power is lost. -/
def torn : List Event := [.start 1 (calm 4 0 ++ [turnOf .killed 0]), dropUnsynced]

theorem torn_not_corrupt :
    outcome "/state" (after torn) restart = .ok (drawn (sixteen 1)) ∧
      ∀ message, outcome "/state" (after torn) restart ≠ .error (.corrupt message) := by
  obtain ⟨past, h⟩ := lived_after torn
  exact ⟨rfl, (no_corrupt_identity h restart).1⟩

/-- An agent creates its id, loses power and starts again. -/
theorem created_stays :
    outcome "/state" (after [create, dropUnsynced]) restart = .ok (drawn (sixteen 0)) ∧
      ∀ agentId, outcome "/state" (after [create, dropUnsynced]) restart = .ok agentId →
        agentId = drawn (sixteen 0) := by
  have h : Lived "/state" (Replaced.Whole ValidText)
      [(restart, after [create, dropUnsynced]), (dropUnsynced, after [create]), (create, fresh)]
      (after [create, dropUnsynced, restart]) :=
    .next (.next (.next (.start whole_fresh) rfl) rfl) rfl
  have hsees : ∀ x ∈ [(restart, after [create, dropUnsynced]), (dropUnsynced, after [create])],
      x.1.Sees x.2 := by
    intro x hx
    rcases List.mem_cons.mp hx with rfl | hx
    · exact fun _ => rfl
    · rw [List.mem_singleton.mp hx]
      trivial
  exact ⟨rfl, (identity_stays [_, _] h rfl rfl hsees (.inl rfl)).2 _ List.mem_cons_self⟩

-- The lookup must succeed: when it fails the next start gives the agent another id.
example : outcome "/state" (after [create])
    (.start 2 ([turnOf .done 1, turnOf (.failed false) 1] ++ calm 7 1)) = .ok (drawn (sixteen 1)) :=
  rfl

/-- A start is killed with its temporary file written, and the next is without
fault. -/
theorem blocked_by_leftover :
    (after [.start 1 (calm 5 0)]).shown = none ∧
      ∀ agentId,
        outcome "/state" (after [.start 1 (calm 5 0)]) (.start 1 (calm 9 1)) ≠ .ok agentId := by
  have h : Lived "/state" (· = after [.start 1 (calm 5 0)])
      [(.start 1 (calm 9 1), after [.start 1 (calm 5 0)])]
      (after [.start 1 (calm 5 0), .start 1 (calm 9 1)]) :=
    .next (.start rfl) rfl
  refine ⟨rfl, (leftover_blocks 1 rfl ?_ h ?_).2 _ List.mem_cons_self⟩
  · exact fun hnone => (nomatch hnone)
  · intro x hx
    rw [List.mem_singleton.mp hx]
    rfl

end Sample

end Lariska.Identity
