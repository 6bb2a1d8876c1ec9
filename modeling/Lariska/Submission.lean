import Lariska.ClientCertificate
import Lariska.DeliverySteps

/-!
# Submitting one entry

`submit_one` posts a snapshot until the server accepts it, rejects it, or the
attempts are used up. An answer that the token is not good is met once with a
refresh and a second post within the same attempt; what is then left of the
error decides whether the entry is moved aside, the attempt repeated after a
while, or the entry kept for another time.

The answers of the server, the tokens, the clock and the jitter are infinite
sequences, of which a call takes as much as it needs; which files can be seen
and moved is given by name. The loop may run for any number of rounds: that it
needs few is proved.
-/

namespace Lariska.Mtls.ApiError

/-- What an error says of itself. -/
def text : ApiError → String
  | .auth => "authentication failed or expired"
  | .forbidden detail => "access forbidden: " ++ detail
  | .conflict detail => "conflicting request: " ++ detail
  | .rateLimited _ => "rate limited"
  | .payloadTooLarge detail => "payload too large: " ++ detail
  | .validation detail => "request validation failed: " ++ detail
  | .transient detail => "transient error: " ++ detail
  | .fatal detail => "unrecoverable error: " ++ detail

/-- The payload is rejected for good. -/
def rejects : ApiError → Bool
  | .conflict _ | .validation _ | .payloadTooLarge _ => true
  | _ => false

/-- What a rejection is called in the delivery model. -/
def rejection : ApiError → Lariska.Rejection
  | .validation _ => .validation
  | .payloadTooLarge _ => .payloadTooLarge
  | _ => .conflict

end Lariska.Mtls.ApiError

namespace Lariska

open Mtls (ApiError)

/-! ## Retrying -/

def maxAttemptsPerEntry : Nat := 6

/-- In milliseconds, as all waits here. -/
def baseBackoff : Nat := 2000
def maxBackoff : Nat := 300000
def maxBackoffExponent : Nat := 16

inductive RetryDecision where
  | retryAfter (millis : Nat)
  | giveUp

/-- `backoff`: the server's wait in seconds, or a random one. -/
def backoff (attempt : Nat) (retryAfter : Option Nat) (jitter : Nat) : Nat :=
  match retryAfter with
  | some seconds => 1000 * seconds
  | none =>
    let maxDelay := min (baseBackoff * 2 ^ min attempt maxBackoffExponent) maxBackoff
    jitter % (max maxDelay 1 + 1)

/-- `classify`. -/
def classify (error : ApiError) (attempt jitter : Nat) : RetryDecision :=
  match error with
  | .transient _ => .retryAfter (backoff attempt none jitter)
  | .rateLimited retryAfter => .retryAfter (backoff attempt retryAfter jitter)
  | .auth | .forbidden _ | .conflict _ | .validation _ | .payloadTooLarge _ | .fatal _ => .giveUp

/-- A wait that the server does not ask for is at most five minutes. -/
theorem backoff_le (attempt jitter : Nat) : backoff attempt none jitter ≤ maxBackoff := by
  have hmax : max (min (baseBackoff * 2 ^ min attempt maxBackoffExponent) maxBackoff) 1
      ≤ maxBackoff := max_le (min_le_right _ _) (by decide)
  exact (Nat.le_of_lt_succ (Nat.mod_lt _ (Nat.succ_pos _))).trans hmax

/-! ## Moving an entry aside -/

/-- How moving a file ends: an error of `rename` leaves it where it is, one of
`sync_parent_dir` comes after it is gone. -/
inductive Moving where
  | done
  | notRenamed (error : String)
  | notSynced (error : String)
deriving DecidableEq

/-- A file as the agent finds it: whether `exists` can look at it, and what comes
of moving it. -/
structure Aside where
  visible : Bool
  move : Moving
deriving DecidableEq

namespace Spool

/-- There is such a file, and it is seen. -/
def Sees (s : Spool) (aside : String → Aside) (name : String) : Prop :=
  s.find name ≠ none ∧ (aside name).visible = true

instance (s : Spool) (aside : String → Aside) (name : String) : Decidable (s.Sees aside name) :=
  inferInstanceAs (Decidable (_ ∧ _))

/-- `quarantine`, of the files that exist, one after the other. -/
def quarantineEach (aside : String → Aside) : List String → Spool → Except String Unit × Spool
  | [], s => (.ok (), s)
  | name :: names, s =>
    if s.Sees aside name then
      match (aside name).move with
      | .done => quarantineEach aside names (s.moveAside [name])
      | .notRenamed error => (.error ("failed to quarantine spool entry: " ++ error), s)
      | .notSynced error => (.error error, s.moveAside [name])
    else quarantineEach aside names s

/-- `quarantine_by_id`, and what comes of it. -/
def quarantineEntry (aside : String → Aside) (s : Spool) (snapshotId : String) :
    Except String Unit × Spool :=
  quarantineEach aside (entryNames snapshotId) s

end Spool

/-! ## The call -/

inductive SubmitFailure where
  | quarantined (message : String)
  | blocking (message : String)
deriving DecidableEq

structure TokenState where
  accessToken : String
  refreshAt : Nat
deriving DecidableEq

/-- What a submission does outside of the process. -/
inductive Call where
  /-- A token is exchanged: because it is time to, or because it was refused. -/
  | exchange (forced : Bool)
  | post (token : String) (answer : Except ApiError Unit)
  | sleep (millis : Nat)
deriving DecidableEq

/-- What a submission meets. -/
structure Surroundings where
  /-- The answers to the posts, in their order. -/
  answer : Nat → Except ApiError Unit
  /-- What the token exchanges bring, in their order. -/
  exchange : Nat → Except ApiError TokenState
  /-- What the clock shows in each attempt. -/
  now : Nat → Nat
  jitter : Nat → Nat
  aside : String → Aside

/-- A submission under way. -/
structure Submission where
  attempt : Nat
  refreshedOnce : Bool
  /-- The token in hand. -/
  token : Option TokenState
  /-- What has been done, newest first. -/
  calls : List Call
  spool : Spool

/-- The answer a call brings. -/
def Call.answer? : Call → Option (Except ApiError Unit)
  | .post _ answer => some answer
  | _ => none

def Call.isForced : Call → Bool
  | .exchange forced => forced
  | _ => false

def Call.isExchange : Call → Bool
  | .exchange _ => true
  | _ => false

namespace Submission

/-- The answers to the posts, newest first. -/
def answers (σ : Submission) : List (Except ApiError Unit) := σ.calls.filterMap Call.answer?

/-- How often the token has been refreshed by force. -/
def forced (σ : Submission) : Nat := σ.calls.countP Call.isForced

def exchanges (σ : Submission) : Nat := σ.calls.countP Call.isExchange

/-- Something is done outside. -/
def doing (σ : Submission) (call : Call) : Submission := { σ with calls := call :: σ.calls }

end Submission

/-- Parts of a submission. A run that has not ended counts as killed. -/
abbrev Submit (α : Type) : Type := Prog Submission SubmitFailure α

section Program

variable (E : Surroundings) (snapshot : InventorySnapshot)

/-- `force_refresh`. -/
def forceRefresh (forced : Bool) : Submit String := do
  let σ ← Prog.get
  Prog.modify (·.doing (.exchange forced))
  match E.exchange σ.exchanges with
  | .error error => Prog.fail (.blocking error.text)
  | .ok fresh => do
    Prog.modify fun σ => { σ with token := some fresh }
    pure fresh.accessToken

/-- `token`: the one in hand until it is time for another. -/
def currentToken : Submit String := do
  let σ ← Prog.get
  match σ.token with
  | some state =>
    if E.now σ.attempt < state.refreshAt then pure state.accessToken else forceRefresh E false
  | none => forceRefresh E false

/-- `post`. -/
def post (token : String) : Submit (Except ApiError Unit) := do
  let σ ← Prog.get
  let answer := E.answer σ.answers.length
  Prog.modify (·.doing (.post token answer))
  pure answer

/-- A post, and once in a submission a second one with a fresh token. -/
def postRefreshing : Submit (Except ApiError Unit) := do
  let token ← currentToken E
  let answer ← post E token
  let σ ← Prog.get
  if answer = .error .auth ∧ σ.refreshedOnce = false then do
    Prog.modify fun σ => { σ with refreshedOnce := true }
    let token ← forceRefresh E true
    post E token
  else pure answer

/-- The entry is moved aside, with the error that says so. -/
def giveUpOn (error : ApiError) : Submit Bool := do
  let message := "snapshot " ++ snapshot.snapshotId ++ " rejected and quarantined: " ++ error.text
  let σ ← Prog.get
  let (result, spool) := σ.spool.quarantineEntry E.aside snapshot.snapshotId
  Prog.modify fun σ => { σ with spool }
  match result with
  | .error quarantineError =>
    Prog.fail (.blocking (message ++ "; failed to quarantine it: " ++ quarantineError))
  | .ok () => Prog.fail (.quarantined message)

/-- What is left of an error is waited out, or returned. -/
def retryLater (error : ApiError) : Submit Bool := do
  let σ ← Prog.get
  match classify error σ.attempt (E.jitter σ.attempt) with
  | .retryAfter delay =>
    if σ.attempt < maxAttemptsPerEntry then do
      Prog.modify (·.doing (.sleep delay))
      pure false
    else Prog.fail (.blocking error.text)
  | .giveUp => Prog.fail (.blocking error.text)

/-- One round of the loop: whether the snapshot is accepted. -/
def submitRound : Submit Bool := do
  Prog.modify fun σ => { σ with attempt := σ.attempt + 1 }
  match ← postRefreshing E with
  | .ok () => pure true
  | .error error =>
    if error.rejects = true then giveUpOn E snapshot error else retryLater E error

/-- **`submit_one`**, for so many rounds at most. -/
def submitOne : Nat → Submit Unit
  | 0 => fun σ => (.killed, σ)
  | rounds + 1 => do
    if (← submitRound E snapshot) = true then pure () else submitOne rounds

end Program

/-- A submission as it starts. -/
def Submission.start (token : Option TokenState) (spool : Spool) : Submission :=
  ⟨0, false, token, [], spool⟩

/-! ## What the parts do -/

namespace Submission

/-- The last answer rejects the payload for good. -/
def Rejected (σ : Submission) : Prop :=
  ∃ error, σ.answers.head? = some (.error error) ∧ error.rejects = true

/-- Tokens have been exchanged, so many of them by force, and no more. -/
structure Exchanged (n : Nat) (σ σ' : Submission) : Prop where
  attempt : σ'.attempt = σ.attempt
  refreshedOnce : σ'.refreshedOnce = σ.refreshedOnce
  answers : σ'.answers = σ.answers
  forced : σ'.forced = σ.forced + n
  spool : σ'.spool = σ.spool

/-- **A submission that goes on**, after so many attempts: the spool is as it
was, no post is accepted and the last one not rejected for good, and the second
post of an attempt is paid for with the refresh. -/
structure Open (s : Spool) (k : Nat) (σ : Submission) : Prop where
  spool : σ.spool = s
  refused : .ok () ∉ σ.answers
  last : ¬ σ.Rejected
  forced : σ.forced = σ.refreshedOnce.toNat
  posts : σ.answers.length ≤ k + σ.refreshedOnce.toNat

variable {E : Surroundings} {snapshot : InventorySnapshot}
variable {s : Spool} {k n : Nat} {σ σ' : Submission}

@[simp] theorem answers_post (σ : Submission) (token : String) (answer : Except ApiError Unit) :
    (σ.doing (.post token answer)).answers = answer :: σ.answers := rfl

@[simp] theorem forced_post (σ : Submission) (token : String) (answer : Except ApiError Unit) :
    (σ.doing (.post token answer)).forced = σ.forced :=
  List.countP_cons_of_neg (by simp [Call.isForced])

theorem Exchanged.rejected (h : Exchanged n σ σ') : σ'.Rejected ↔ σ.Rejected := by
  unfold Rejected
  rw [h.answers]

/-- An exchange that is not forced changes nothing that counts. -/
theorem Open.exchanged (h : Open s k σ) (he : Exchanged 0 σ σ') : Open s k σ' where
  spool := he.spool.trans h.spool
  refused := he.answers ▸ h.refused
  last := he.rejected.not.mpr h.last
  forced := by rw [he.forced, he.refreshedOnce, h.forced, Nat.add_zero]
  posts := by rw [he.answers, he.refreshedOnce]; exact h.posts

/-- After a post that is refused for now. -/
theorem Open.refusedPost (h : Open s k σ) (token : String) {error : ApiError}
    (he : error.rejects = false) : Open s (k + 1) (σ.doing (.post token (.error error))) where
  spool := h.spool
  refused := by simpa using h.refused
  last := by
    rintro ⟨error', hhead, hrejects⟩
    obtain rfl : error = error' := by simpa using hhead
    rw [he] at hrejects
    cases hrejects
  forced := by rw [forced_post]; exact h.forced
  posts := by
    have hposts := h.posts
    rw [answers_post, List.length_cons]
    show σ.answers.length + 1 ≤ k + 1 + σ.refreshedOnce.toNat
    omega

/-- The refresh that a refused token is met with makes up for the post. -/
theorem Open.refreshed (h : Open s (k + 1) σ) (hfirst : σ.refreshedOnce = false)
    (he : Exchanged 1 { σ with refreshedOnce := true } σ') : Open s k σ' where
  spool := he.spool.trans h.spool
  refused := by rw [he.answers]; exact h.refused
  last := he.rejected.not.mpr h.last
  forced := by
    have hforced := h.forced
    rw [hfirst] at hforced
    rw [he.forced, he.refreshedOnce]
    show σ.forced + 1 = 1
    rw [hforced]
    rfl
  posts := by
    have hposts := h.posts
    rw [hfirst] at hposts
    rw [he.answers, he.refreshedOnce]
    exact hposts

/-- How a submission fails: it is blocked with the spool as it was, or the last
answer has rejected the payload for good and the entry is dealt with. -/
structure Failed (E : Surroundings) (snapshot : InventorySnapshot) (s : Spool)
    (failure : SubmitFailure) (σ : Submission) : Prop where
  refused : .ok () ∉ σ.answers
  forced : σ.forced ≤ 1
  posts : σ.answers.length ≤ maxAttemptsPerEntry + 1
  untouched : ¬ σ.Rejected → σ.spool = s
  aside : σ.Rejected → σ.spool = (s.quarantineEntry E.aside snapshot.snapshotId).2
  failure : (∃ message, failure = .quarantined message) ↔
    σ.Rejected ∧ (s.quarantineEntry E.aside snapshot.snapshotId).1 = .ok ()

/-- A submission that goes on may end for want of a token, or of attempts. -/
theorem Open.blocked (h : Open s k σ) (hk : k ≤ maxAttemptsPerEntry) (message : String) :
    Failed E snapshot s (.blocking message) σ where
  refused := h.refused
  forced := by
    rw [h.forced]
    exact Bool.toNat_le _
  posts := h.posts.trans (by have := Bool.toNat_le σ.refreshedOnce; omega)
  untouched _ := h.spool
  aside hr := absurd hr h.last
  failure := by simp [h.last]

/-- How a submission succeeds: with the last of its posts, and nothing after. -/
structure Accepted (s : Spool) (σ : Submission) : Prop where
  last : ∃ token earlier, σ.calls = .post token (.ok ()) :: earlier ∧
    .ok () ∉ earlier.filterMap Call.answer?
  forced : σ.forced ≤ 1
  posts : σ.answers.length ≤ maxAttemptsPerEntry + 1
  spool : σ.spool = s

/-- An accepted post ends it. -/
theorem Open.accepted (h : Open s k σ) (hk : k < maxAttemptsPerEntry) (token : String) :
    Accepted s (σ.doing (.post token (.ok ()))) where
  last := ⟨token, σ.calls, rfl, h.refused⟩
  forced := by
    rw [forced_post, h.forced]
    exact Bool.toNat_le _
  posts := by
    have hposts := h.posts
    have hrefresh := Bool.toNat_le σ.refreshedOnce
    rw [answers_post, List.length_cons]
    omega
  spool := h.spool

end Submission

/-! ## The parts as programs -/

section Parts

open Submission

variable {E : Surroundings} {snapshot : InventorySnapshot}
variable {s : Spool} {k : Nat} {σ : Submission} {D : Submission → Prop}

theorem forceRefresh_leads (forced : Bool) (σ : Submission) :
    (forceRefresh E forced).Leads σ (fun _ σ' => Exchanged forced.toNat σ σ')
      (fun failure σ' => Exchanged forced.toNat σ σ' ∧ ∃ message, failure = .blocking message) D := by
  have hcalled : Exchanged forced.toNat σ (σ.doing (.exchange forced)) := by
    refine ⟨rfl, rfl, rfl, ?_, rfl⟩
    cases forced
    · exact List.countP_cons_of_neg (by simp [Call.isForced])
    · exact List.countP_cons_of_pos rfl
  refine Prog.leads_bind.mpr (Prog.leads_get.mpr ?_)
  refine Prog.leads_bind.mpr (Prog.leads_modify.mpr ?_)
  cases E.exchange σ.exchanges with
  | error error => exact (Prog.leads_fail _).mpr ⟨hcalled, _, rfl⟩
  | ok fresh =>
    refine Prog.leads_bind.mpr (Prog.leads_modify.mpr ((Prog.leads_pure _).mpr ?_))
    exact ⟨hcalled.attempt, hcalled.refreshedOnce, hcalled.answers, hcalled.forced, hcalled.spool⟩

theorem currentToken_leads (σ : Submission) :
    (currentToken E).Leads σ (fun _ σ' => Exchanged 0 σ σ')
      (fun failure σ' => Exchanged 0 σ σ' ∧ ∃ message, failure = .blocking message) D := by
  refine Prog.leads_bind.mpr (Prog.leads_get.mpr ?_)
  cases σ.token with
  | none => exact forceRefresh_leads false σ
  | some state =>
    refine Prog.leads_ite (fun _ => (Prog.leads_pure _).mpr ⟨rfl, rfl, rfl, rfl, rfl⟩) fun _ => ?_
    exact forceRefresh_leads false σ

/-- A post is added, with the next of the answers. -/
theorem post_leads (token : String) (σ : Submission) :
    (post E token).Leads σ (fun answer σ' => σ' = σ.doing (.post token answer))
      (fun _ _ => False) D := by
  refine Prog.leads_bind.mpr (Prog.leads_get.mpr ?_)
  exact Prog.leads_bind.mpr (Prog.leads_modify.mpr ((Prog.leads_pure _).mpr rfl))

/-- **What an attempt comes to**: it is blocked, or a last post is made. -/
theorem postRefreshing_leads (h : Open s k σ) (hk : k < maxAttemptsPerEntry) :
    (postRefreshing E).Leads σ
      (fun answer σ' => ∃ σ₀ token, Open s k σ₀ ∧ σ₀.attempt = σ.attempt ∧
        σ' = σ₀.doing (.post token answer))
      (fun failure σ' => Failed E snapshot s failure σ') D := by
  refine Prog.leads_bind.mpr ((currentToken_leads σ).mono (fun token σ₀ h₀ => ?_)
    (fun _ σ₀ h₀ => ?_) fun _ hd => hd)
  · have hopen := h.exchanged h₀
    refine Prog.leads_bind.mpr ((post_leads token σ₀).mono (fun answer σ₁ h₁ => ?_)
      (fun _ _ hfalse => hfalse.elim) fun _ hd => hd)
    subst h₁
    refine Prog.leads_bind.mpr (Prog.leads_get.mpr (Prog.leads_ite (fun hauth => ?_) fun _ => ?_))
    · obtain ⟨rfl, hfirst⟩ := hauth
      have hrefused := hopen.refusedPost token (show ApiError.auth.rejects = false from rfl)
      refine Prog.leads_bind.mpr (Prog.leads_modify.mpr (Prog.leads_bind.mpr ?_))
      refine (forceRefresh_leads true _).mono (fun fresh σ₂ h₂ => ?_) (fun _ σ₂ h₂ => ?_)
        fun _ hd => hd
      · refine (post_leads fresh σ₂).mono (fun answer σ₃ h₃ => ?_)
          (fun _ _ hfalse => hfalse.elim) fun _ hd => hd
        exact ⟨σ₂, fresh, hrefused.refreshed hfirst h₂, h₂.attempt.trans h₀.attempt, h₃⟩
      · obtain ⟨h₂, message, rfl⟩ := h₂
        exact (hrefused.refreshed hfirst h₂).blocked hk.le message
    · exact (Prog.leads_pure _).mpr ⟨σ₀, token, hopen, h₀.attempt, rfl⟩
  · obtain ⟨h₀, message, rfl⟩ := h₀
    exact (h.exchanged h₀).blocked hk.le message

/-- A payload rejected for good ends it, one way or the other. -/
theorem giveUpOn_leads {error : ApiError} (h : Open s k σ) (hk : k < maxAttemptsPerEntry)
    (token : String) (hrejects : error.rejects = true) :
    (giveUpOn E snapshot error).Leads (σ.doing (.post token (.error error))) (fun _ _ => False)
      (fun failure σ' => Failed E snapshot s failure σ') D := by
  have hspool : (σ.doing (.post token (.error error))).spool = s := h.spool
  have hfailed : ∀ failure, ((∃ message, failure = .quarantined message) ↔
      (s.quarantineEntry E.aside snapshot.snapshotId).1 = .ok ()) →
      Failed E snapshot s failure { σ.doing (.post token (.error error)) with
        spool := (s.quarantineEntry E.aside snapshot.snapshotId).2 } := by
    intro failure hiff
    have hrejected : Rejected { σ.doing (.post token (.error error)) with
        spool := (s.quarantineEntry E.aside snapshot.snapshotId).2 } := ⟨error, rfl, hrejects⟩
    refine ⟨?_, ?_, ?_, fun hn => absurd hrejected hn, fun _ => rfl, ?_⟩
    · show .ok () ∉ Except.error error :: σ.answers
      simpa using h.refused
    · show (σ.doing (.post token (.error error))).forced ≤ 1
      rw [forced_post, h.forced]
      exact Bool.toNat_le _
    · have hposts := h.posts
      have hrefresh := Bool.toNat_le σ.refreshedOnce
      show σ.answers.length + 1 ≤ _
      omega
    · rw [hiff]
      exact ⟨fun hok => ⟨hrejected, hok⟩, fun hok => hok.2⟩
  refine Prog.leads_bind.mpr (Prog.leads_get.mpr ?_)
  rw [hspool]
  generalize s.quarantineEntry E.aside snapshot.snapshotId = aside at hfailed ⊢
  obtain ⟨result, spool⟩ := aside
  cases result with
  | error quarantineError =>
    exact Prog.leads_bind.mpr (Prog.leads_modify.mpr ((Prog.leads_fail _).mpr
      (hfailed (.blocking _) (by simp))))
  | ok _ =>
    exact Prog.leads_bind.mpr (Prog.leads_modify.mpr ((Prog.leads_fail _).mpr
      (hfailed (.quarantined _) (by simp))))

/-- What the loop does with another error: it waits as long as attempts are left. -/
theorem retryLater_leads {error : ApiError} (h : Open s (k + 1) σ) (hattempt : σ.attempt = k + 1)
    (hk : k < maxAttemptsPerEntry) :
    (retryLater E error).Leads σ
      (fun accepted σ' => accepted = false ∧ Open s (k + 1) σ' ∧ σ'.attempt = k + 1 ∧
        k + 1 < maxAttemptsPerEntry)
      (fun failure σ' => Failed E snapshot s failure σ') D := by
  have hblocked : ∀ message, Failed E snapshot s (.blocking message) σ := h.blocked hk
  refine Prog.leads_bind.mpr (Prog.leads_get.mpr ?_)
  cases classify error σ.attempt (E.jitter σ.attempt) with
  | giveUp => exact (Prog.leads_fail _).mpr (hblocked _)
  | retryAfter delay =>
    refine Prog.leads_ite (fun hleft => ?_) fun _ => (Prog.leads_fail _).mpr (hblocked _)
    refine Prog.leads_bind.mpr (Prog.leads_modify.mpr ((Prog.leads_pure _).mpr ?_))
    refine ⟨rfl, ⟨h.spool, h.refused, h.last, ?_, h.posts⟩, hattempt, by omega⟩
    show List.countP _ (_ :: _) = _
    rw [List.countP_cons_of_neg (by simp [Call.isForced])]
    exact h.forced

/-- **One round**: it ends, or the next attempt is open. -/
theorem submitRound_leads (h : Open s k σ) (hattempt : σ.attempt = k)
    (hk : k < maxAttemptsPerEntry) :
    (submitRound E snapshot).Leads σ
      (fun accepted σ' => if accepted = true then Accepted s σ' else
        Open s (k + 1) σ' ∧ σ'.attempt = k + 1 ∧ k + 1 < maxAttemptsPerEntry)
      (fun failure σ' => Failed E snapshot s failure σ') D := by
  have hcounted : Open s k { σ with attempt := σ.attempt + 1 } :=
    ⟨h.spool, h.refused, h.last, h.forced, h.posts⟩
  refine Prog.leads_bind.mpr (Prog.leads_modify.mpr (Prog.leads_bind.mpr ?_))
  refine (postRefreshing_leads hcounted hk).imp fun answer σ' hposted => ?_
  obtain ⟨σ₀, token, hopen, hattempt₀, rfl⟩ := hposted
  cases answer with
  | ok _ => exact (Prog.leads_pure _).mpr (hopen.accepted hk token)
  | error error =>
    refine Prog.leads_ite (fun hrejects => ?_) fun hrejects => ?_
    · exact (giveUpOn_leads hopen hk token hrejects).imp fun _ _ hfalse => hfalse.elim
    · have hrefused := hopen.refusedPost token (Bool.eq_false_of_not_eq_true hrejects)
      have hattempt' : (σ₀.doing (.post token (.error error))).attempt = k + 1 :=
        hattempt₀.trans (congrArg (· + 1) hattempt)
      refine (retryLater_leads hrefused hattempt' hk).imp fun accepted σ' hagain => ?_
      obtain ⟨rfl, hagain⟩ := hagain
      exact hagain

/-- **The loop ends**, given as many rounds as there are attempts left. -/
theorem submitOne_leads {rounds : Nat} (h : Open s k σ) (hattempt : σ.attempt = k)
    (hk : k < maxAttemptsPerEntry) (hrounds : maxAttemptsPerEntry ≤ k + rounds) :
    (submitOne E snapshot rounds).Leads σ (fun _ σ' => Accepted s σ')
      (fun failure σ' => Failed E snapshot s failure σ') fun _ => False := by
  induction rounds generalizing k σ with
  | zero => omega
  | succ rounds ih =>
    refine Prog.leads_bind.mpr ((submitRound_leads h hattempt hk).imp fun accepted σ' hround => ?_)
    refine Prog.leads_ite (fun haccepted => ?_) fun hagain => ?_
    · rw [if_pos haccepted] at hround
      exact (Prog.leads_pure _).mpr hround
    · rw [if_neg hagain] at hround
      exact ih hround.1 hround.2.1 hround.2.2 (by omega)

end Parts

/-! ## What becomes of the entry -/

namespace Spool

variable {aside : String → Aside} {s : Spool} {f : SpoolFile} {name : String}
  {names : List String}

theorem find_moveAside (s : Spool) (moved name : String) :
    (s.moveAside [moved]).find name = if name = moved then none else s.find name := by
  show List.find? _ (List.filter _ s.pending) = _
  rw [List.find?_filter]
  split_ifs with h
  · subst h
    simp
  · refine List.find?_congr fun f _ => ?_
    by_cases hf : f.name = name
    · simp [hf, h]
    · simp [hf]

theorem mem_quarantine_moveAside {moved : String} (hf : f ∈ s.quarantine) (hne : f.name ≠ moved) :
    f ∈ (s.moveAside [moved]).quarantine := by
  refine List.mem_append_right _ (List.mem_filter.mpr ⟨hf, ?_⟩)
  have hmoved : ∀ g ∈ s.pending.filter (fun f => f.name ∈ [moved]), g.name = moved := by simp
  rw [decide_eq_true_iff, List.mem_map]
  rintro ⟨g, hg, heq⟩
  exact hne (heq.symm.trans (hmoved g hg))

/-- A file is where it was, or it is the one moved aside. -/
theorem mem_moveAside (moved : String) (hf : f ∈ s.pending) :
    f ∈ (s.moveAside [moved]).pending ∨ f.name = moved ∧ f ∈ (s.moveAside [moved]).quarantine := by
  by_cases h : f.name = moved
  · exact .inr ⟨h, List.mem_append_left _ (List.mem_filter.mpr ⟨hf, by simpa using h⟩)⟩
  · exact .inl (List.mem_filter.mpr ⟨hf, by simpa using h⟩)

/-- What is in the quarantine and not replaced stays there. -/
theorem quarantine_quarantineEach (hf : f ∈ s.quarantine) (hn : f.name ∉ names) :
    f ∈ (quarantineEach aside names s).2.quarantine := by
  induction names generalizing s with
  | nil => exact hf
  | cons name names ih =>
    obtain ⟨hne, hn⟩ := not_or.mp (List.mem_cons.not.mp hn)
    have hmoved := mem_quarantine_moveAside hf hne
    unfold quarantineEach
    split_ifs
    · cases (aside name).move with
      | done => exact ih hmoved hn
      | notRenamed error => exact hf
      | notSynced error => exact hmoved
    · exact ih hf hn

/-- **No file is lost**: what is not pending any more is in the quarantine. -/
theorem quarantineEach_keeps (hnodup : names.Nodup) (hf : f ∈ s.pending) :
    f ∈ (quarantineEach aside names s).2.pending ∨
      f.name ∈ names ∧ f ∈ (quarantineEach aside names s).2.quarantine := by
  induction names generalizing s with
  | nil => exact .inl hf
  | cons name names ih =>
    obtain ⟨hname, hnodup⟩ := List.nodup_cons.mp hnodup
    have hstays : ∀ t : Spool, f ∈ t.pending →
        f ∈ (quarantineEach aside names t).2.pending ∨
          f.name ∈ name :: names ∧ f ∈ (quarantineEach aside names t).2.quarantine :=
      fun t ht => (ih hnodup ht).imp_right fun h => ⟨List.mem_cons_of_mem _ h.1, h.2⟩
    unfold quarantineEach
    split_ifs
    · obtain hpending | ⟨heq, hquarantine⟩ := mem_moveAside name hf
      · cases (aside name).move with
        | done => exact hstays _ hpending
        | notRenamed error => exact .inl hf
        | notSynced error => exact .inl hpending
      · have hmem : f.name ∈ name :: names := heq ▸ List.mem_cons_self
        cases (aside name).move with
        | done => exact .inr ⟨hmem, quarantine_quarantineEach hquarantine (heq ▸ hname)⟩
        | notRenamed error => exact .inl hf
        | notSynced error => exact .inr ⟨hmem, hquarantine⟩
    · exact hstays s hf

/-- A name that has no file gets none. -/
theorem find_quarantineEach (hf : s.find name = none) :
    (quarantineEach aside names s).2.find name = none := by
  induction names generalizing s with
  | nil => exact hf
  | cons moved names ih =>
    have hmoved : (s.moveAside [moved]).find name = none := by simp [find_moveAside, hf]
    unfold quarantineEach
    split_ifs
    · cases (aside moved).move with
      | done => exact ih hmoved
      | notRenamed error => exact hf
      | notSynced error => exact hmoved
    · exact ih hf

theorem sees_moveAside {moved : String} (hne : name ≠ moved) :
    (s.moveAside [moved]).Sees aside name ↔ s.Sees aside name := by
  unfold Sees
  rw [find_moveAside, if_neg hne]

/-- **It succeeds** exactly when every file that is seen is moved and synced. -/
theorem quarantineEach_eq_ok (hnodup : names.Nodup) :
    (quarantineEach aside names s).1 = .ok () ↔
      ∀ name ∈ names, s.Sees aside name → (aside name).move = .done := by
  induction names generalizing s with
  | nil => simp [quarantineEach]
  | cons name names ih =>
    obtain ⟨hname, hnodup⟩ := List.nodup_cons.mp hnodup
    rw [List.forall_mem_cons]
    unfold quarantineEach
    split_ifs with hsees
    · cases hmove : (aside name).move with
      | done =>
        show (quarantineEach aside names (s.moveAside [name])).1 = _ ↔ _
        rw [ih hnodup]
        have hothers : ∀ n ∈ names, (s.moveAside [name]).Sees aside n ↔ s.Sees aside n :=
          fun n hn => sees_moveAside fun heq => hname (heq ▸ hn)
        simp only [implies_true, true_and]
        exact forall₂_congr fun n hn => by rw [hothers n hn]
      | notRenamed error => simp [hsees]
      | notSynced error => simp [hsees]
    · rw [ih hnodup]
      simp [hsees]

/-- ... and then no file that was seen is left. -/
theorem gone_of_quarantineEach (hnodup : names.Nodup) (hok : (quarantineEach aside names s).1 = .ok ())
    (hn : name ∈ names) (hsees : s.Sees aside name) :
    (quarantineEach aside names s).2.find name = none := by
  induction names generalizing s with
  | nil => cases hn
  | cons moved names ih =>
    obtain ⟨hmoved, hnodup'⟩ := List.nodup_cons.mp hnodup
    have hdone := (quarantineEach_eq_ok hnodup).mp hok
    unfold quarantineEach at hok ⊢
    obtain rfl | hn := List.mem_cons.mp hn
    · rw [if_pos hsees, hdone name List.mem_cons_self hsees]
      exact find_quarantineEach (by simp [find_moveAside])
    · split_ifs at hok ⊢ with hfirst
      · rw [hdone moved List.mem_cons_self hfirst] at hok ⊢
        exact ih hnodup' hok hn
          ((sees_moveAside fun heq : name = moved => hmoved (heq ▸ hn)).mpr hsees)
      · exact ih hnodup' hok hn hsees

/-- Where no file that is seen can be renamed, nothing changes. -/
theorem quarantineEach_spool
    (h : ∀ name ∈ names, s.Sees aside name → ∃ error, (aside name).move = .notRenamed error) :
    (quarantineEach aside names s).2 = s := by
  induction names with
  | nil => rfl
  | cons name names ih =>
    rw [List.forall_mem_cons] at h
    unfold quarantineEach
    split_ifs with hsees
    · obtain ⟨error, herror⟩ := h.1 hsees
      rw [herror]
    · exact ih h.2

end Spool

theorem nodup_entryNames (snapshotId : String) : (entryNames snapshotId).Nodup := by
  simp [entryNames, entryName_ne_legacyName]

open Submission

theorem Submission.open_start (token : Option TokenState) (s : Spool) :
    Submission.Open s 0 (.start token s) :=
  ⟨rfl, List.not_mem_nil, (by rintro ⟨_, h, -⟩; cases h), rfl, le_rfl⟩

/-- **A submission ends**, whatever it meets: after at most seven posts and one
forced refresh. It succeeds exactly when a post is accepted, which is then the
last thing it has done. It reports the entry quarantined exactly when the last
answer is a conflict, a failed validation or a payload too large and every file
of the entry that is seen has been moved aside; these are then no longer in the
spool. Otherwise it is blocked, and the spool has only changed if the last
answer was such a rejection and a file of the entry could be renamed; no file
is lost. -/
theorem submission_ends (E : Surroundings) (snapshot : InventorySnapshot)
    (token : Option TokenState) (s : Spool) (more : Nat) :
    let run := submitOne E snapshot (maxAttemptsPerEntry + more) (.start token s)
    let names := entryNames snapshot.snapshotId
    run.1 ≠ .killed ∧ run.2.answers.length ≤ 7 ∧ run.2.forced ≤ 1 ∧
    (run.1 = .ok () ↔ .ok () ∈ run.2.answers) ∧
    (run.1 = .ok () → run.2.spool = s ∧ ∃ token earlier,
      run.2.calls = .post token (.ok ()) :: earlier ∧ .ok () ∉ earlier.filterMap Call.answer?) ∧
    ((∃ message, run.1 = .error (.quarantined message)) ↔
      run.2.Rejected ∧ ∀ name ∈ names, s.Sees E.aside name → (E.aside name).move = .done) ∧
    ((∃ message, run.1 = .error (.quarantined message)) →
      ∀ name ∈ names, s.Sees E.aside name → run.2.spool.find name = none) ∧
    (run.2.spool ≠ s → run.2.Rejected ∧
      ∃ name ∈ names, s.Sees E.aside name ∧ ∀ error, (E.aside name).move ≠ .notRenamed error) ∧
    ∀ f ∈ s.pending, f ∈ run.2.spool.pending ∨ f.name ∈ names ∧ f ∈ run.2.spool.quarantine := by
  intro run names
  have hnodup : names.Nodup := nodup_entryNames _
  have hleads : (submitOne E snapshot (maxAttemptsPerEntry + more)).Leads (.start token s)
      (fun _ σ' => Accepted s σ') (fun failure σ' => Failed E snapshot s failure σ')
      fun _ => False := submitOne_leads (open_start token s) rfl (by decide) (by omega)
  unfold Prog.Leads at hleads
  split at hleads
  · next σ hrun =>
    obtain ⟨hresult, hstate⟩ : run.1 = .ok () ∧ run.2 = σ :=
      ⟨congrArg Prod.fst hrun, congrArg Prod.snd hrun⟩
    rw [hresult, hstate]
    obtain ⟨last, earlier, hcalls, hrefused⟩ := hleads.last
    have hanswers : σ.answers = .ok () :: earlier.filterMap Call.answer? := by
      unfold answers
      rw [hcalls]
      rfl
    have hrejected : ¬ σ.Rejected := by
      rintro ⟨error, hhead, -⟩
      rw [hanswers] at hhead
      cases hhead
    refine ⟨nofun, hleads.posts, hleads.forced, ?_,
      fun _ => ⟨hleads.spool, last, earlier, hcalls, hrefused⟩, ?_, ?_, ?_, ?_⟩
    · simp [hanswers]
    · simp [hrejected]
    · simp
    · exact fun h => absurd hleads.spool h
    · exact fun f hf => .inl (hleads.spool ▸ hf)
  · next failure σ hrun =>
    obtain ⟨hresult, hstate⟩ : run.1 = .error failure ∧ run.2 = σ :=
      ⟨congrArg Prod.fst hrun, congrArg Prod.snd hrun⟩
    rw [hresult, hstate]
    have hquarantined : (∃ message, Outcome.error (α := Unit) failure = .error (.quarantined message))
        ↔ σ.Rejected ∧ (s.quarantineEntry E.aside snapshot.snapshotId).1 = .ok () := by
      rw [← hleads.failure]
      simp
    refine ⟨nofun, hleads.posts, hleads.forced, ?_, nofun, ?_, fun h name hn hsees => ?_,
      fun hne => ?_, fun f hf => ?_⟩
    · simp [hleads.refused]
    · rw [hquarantined]
      exact and_congr_right fun _ => Spool.quarantineEach_eq_ok hnodup
    · obtain ⟨hrejected, hok⟩ := hquarantined.mp h
      rw [hleads.aside hrejected]
      exact Spool.gone_of_quarantineEach hnodup hok hn hsees
    · have hrejected : σ.Rejected := by
        by_contra hn
        exact hne (hleads.untouched hn)
      refine ⟨hrejected, ?_⟩
      by_contra hnone
      refine hne ((hleads.aside hrejected).trans (Spool.quarantineEach_spool fun name hn hsees => ?_))
      by_contra hmoved
      exact hnone ⟨name, hn, hsees, not_exists.mp hmoved⟩
    · by_cases hrejected : σ.Rejected
      · rw [hleads.aside hrejected]
        exact Spool.quarantineEach_keeps hnodup hf
      · exact .inl ((hleads.untouched hrejected).symm ▸ hf)
  · exact hleads.elim

/-! ## The answers of the delivery model -/

namespace Spool

variable {aside : String → Aside} {s : Spool} {id : String}

/-- Moving aside goes by the names that have a file. -/
theorem moveAside_congr {names names' : List String}
    (h : ∀ f ∈ s.pending, f.name ∈ names ↔ f.name ∈ names') :
    s.moveAside names = s.moveAside names' := by
  have hmoved : s.pending.filter (fun f => f.name ∈ names)
      = s.pending.filter fun f => f.name ∈ names' :=
    List.filter_congr fun f hf => decide_eq_decide.mpr (h f hf)
  have hleft : (s.without names).pending = (s.without names').pending :=
    List.filter_congr fun f hf => decide_eq_decide.mpr (h f hf).not
  unfold moveAside
  rw [hmoved, hleft]

@[simp] theorem moveAside_nil (s : Spool) : s.moveAside [] = s := by
  simp [moveAside, without]

/-- Where the entry has at most one file, which is seen, moving it aside is what
the delivery model has for it: it is done, or an error comes before or after. -/
theorem exists_quarantineEntry (hlegacy : s.find (legacyName id) = none)
    (hvisible : (aside (entryName id)).visible = true) :
    ∃ moved : FileResult, ((s.quarantineEntry aside id).1 = .ok () ↔ moved = .done) ∧
      (s.quarantineEntry aside id).2 = if moved.effective then s.quarantineById id else s := by
  have hnot : ∀ f ∈ s.pending, f.name ≠ legacyName id := by simpa [find] using hlegacy
  have hunseen : ∀ t : Spool, t.find (legacyName id) = none →
      quarantineEach aside [legacyName id] t = (.ok (), t) := fun t ht =>
    if_neg fun hsees => hsees.1 ht
  have hleft : (s.moveAside [entryName id]).find (legacyName id) = none := by
    rw [find_moveAside, hlegacy, ite_self]
  have hone : s.quarantineById id = s.moveAside [entryName id] :=
    moveAside_congr fun f hf => by simp [hnot f hf]
  unfold quarantineEntry entryNames quarantineEach
  cases hf : s.find (entryName id) with
  | none =>
    have hnone : ∀ f ∈ s.pending, f.name ≠ entryName id := by simpa [find] using hf
    have hsame : s.moveAside [entryName id] = s :=
      (moveAside_congr fun f hf => by simp [hnone f hf]).trans s.moveAside_nil
    rw [if_neg fun hsees => hsees.1 hf, hunseen s hlegacy]
    exact ⟨.done, by simp, by simp [FileResult.effective, hone, hsame]⟩
  | some f =>
    rw [if_pos ⟨by simp [hf], hvisible⟩]
    cases (aside (entryName id)).move with
    | done =>
      rw [hunseen _ hleft]
      exact ⟨.done, by simp, by simp [FileResult.effective, hone]⟩
    | notRenamed error => exact ⟨.failed false, by simp, by simp [FileResult.effective]⟩
    | notSynced error => exact ⟨.failed true, by simp, by simp [FileResult.effective, hone]⟩

end Spool

/-- **What a submission comes to is an answer of the delivery model**, where the
entry has one file and this is seen. -/
theorem submission_answers {E : Surroundings} {snapshot : InventorySnapshot} {σ : Delivery}
    {paths : List String} (hw : σ.worker = .submitting snapshot paths)
    (hlegacy : σ.spool.find (legacyName snapshot.snapshotId) = none)
    (hvisible : (E.aside (entryName snapshot.snapshotId)).visible = true)
    (token : Option TokenState) (more : Nat) :
    (submitOne E snapshot (maxAttemptsPerEntry + more)).Leads (.start token σ.spool)
      (fun _ run => ∃ σ', σ.answer .accepted = some σ' ∧ σ'.spool = run.spool ∧
        σ'.worker = .accepted snapshot paths)
      (fun failure run => ∃ answer σ', σ.answer answer = some σ' ∧ σ'.spool = run.spool ∧
        σ'.worker = match failure with
          | .quarantined _ => .next paths
          | .blocking _ => .idle)
      fun _ => False := by
  have hleads : (submitOne E snapshot (maxAttemptsPerEntry + more)).Leads (.start token σ.spool)
      (fun _ run => Accepted σ.spool run) (fun failure run => Failed E snapshot σ.spool failure run)
      fun _ => False := submitOne_leads (open_start token σ.spool) rfl (by decide) (by omega)
  refine hleads.mono (fun _ run h => ?_) (fun failure run h => ?_) fun _ h => h
  · exact ⟨{ σ with server := snapshot :: σ.server, worker := .accepted snapshot paths },
      by simp [Delivery.answer, hw], h.spool.symm, rfl⟩
  · by_cases hrejected : run.Rejected
    · obtain ⟨moved, hok, hspool⟩ := Spool.exists_quarantineEntry hlegacy hvisible
      obtain ⟨error, -, -⟩ := id hrejected
      refine ⟨.rejected error.rejection moved, { σ with
        spool := if moved.effective then σ.spool.quarantineById snapshot.snapshotId else σ.spool
        worker := if moved = .done then .next paths else .idle },
        by simp [Delivery.answer, hw], by rw [h.aside hrejected, hspool], ?_⟩
      have hquarantined := h.failure
      rw [hok] at hquarantined
      show (if moved = .done then WorkerTask.next paths else .idle) = _
      cases failure with
      | quarantined message => rw [if_pos (hquarantined.mp ⟨message, rfl⟩).2]
      | blocking message =>
        have hnot : moved ≠ .done := fun hdone => by simpa using hquarantined.mpr ⟨hrejected, hdone⟩
        rw [if_neg hnot]
    · refine ⟨.refused, { σ with worker := .idle }, by simp [Delivery.answer, hw],
        (h.untouched hrejected).symm, ?_⟩
      cases failure with
      | quarantined message => exact absurd (h.failure.mp ⟨message, rfl⟩).1 hrejected
      | blocking message => rfl

namespace Sample

/-- A server that finds the snapshot in conflict, and a disk that moves the
entry and then fails to sync its directory. -/
def unsynced : Surroundings where
  answer _ := .error (.conflict "snapshot id taken")
  exchange _ := .ok ⟨"token", 3600⟩
  now _ := 0
  jitter _ := 0
  aside _ := ⟨true, .notSynced "failed to sync spool directory /var/lib/lariska/spool: I/O error"⟩

/-- **Moved aside, and not reported as such**: the entry is in the quarantine,
and the submission is blocked. -/
theorem moved_but_blocked :
    let s : Spool := ⟨[⟨entryName "snap-1", 1, []⟩], []⟩
    let run := submitOne unsynced (snapshot "snap-1" "host-1") maxAttemptsPerEntry (.start none s)
    run.1 = .error (.blocking ("snapshot snap-1 rejected and quarantined: conflicting request: " ++
      "snapshot id taken; failed to quarantine it: failed to sync spool directory " ++
      "/var/lib/lariska/spool: I/O error")) ∧
    run.2.answers = [.error (.conflict "snapshot id taken")] ∧
    run.2.spool = ⟨[], [⟨entryName "snap-1", 1, []⟩]⟩ := by
  decide +kernel

end Sample

end Lariska
