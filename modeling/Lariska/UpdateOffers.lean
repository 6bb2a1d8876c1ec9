import Lariska.ClientCertificate
import Lariska.QueueRefusals

/-!
# What becomes of an offered update

With every heartbeat the server repeats the update it offers. The loop tries an
offer that is new to it and remembers it, so that it does not download on every
beat what it has turned down already. It remembers the last offer it has tried,
however that ended: one that it could not even ask for, having no token, is
skipped from then on like one whose digest is wrong, until another offer comes.

`beat` is one turn of the loop, and a run is a list of beats, in processes that
may be killed and started again. The history of a run is newest first.
-/

namespace Lariska.Endpoint

open Prog (attempt)
open Mtls (ApiError)

/-! ## The code -/

structure ManagedUpdate where
  version : String
  platform : String
  sha256 : String
  sizeBytes : Option Nat
  url : String
  signedManifest : Option SignedManifest
deriving DecidableEq

/-- The part of the configuration an update depends on. -/
structure AgentConfig where
  native : Config
  serverUrl : String
  allowInsecureUpdates : Bool

inductive UpdateOutcome where
  | queued (version : String)
  | refused (reason : Fault)
  | failed (error : Fault)

/-- How an attempt at an offer ends. -/
inductive Ending where
  /-- There is no token to fetch the build with. -/
  | noToken (error : ApiError)
  /-- There is no HTTP client. -/
  | noClient (error : ApiError)
  | over (outcome : UpdateOutcome)

/-- What an attempt meets: a token and a client, or why there is none, and the
turns of the call that queues the update. -/
structure Meeting where
  token : Except ApiError String
  http : Except ApiError Unit
  script : List Turn

section Programs

variable (P : Platform) (W : Web) (config : AgentConfig)

/-- `apply_update`. -/
def applyUpdate (update : ManagedUpdate) : Act UpdateOutcome :=
  if "https://".toList.isPrefixOf config.serverUrl.toList = false ∧
      config.allowInsecureUpdates = false then
    pure (.refused
      "refusing native update over plain HTTP; allow_insecure_updates is a local lab-only override")
  else if update.platform ≠ P.targetTriple then
    pure (.refused (.detailed "server offered a build for "
      (update.platform ++ " and this agent is " ++ P.targetTriple)))
  else
    match update.signedManifest with
    | none =>
      pure (.refused "unsigned update: an Ed25519 signed release manifest is required")
    | some signed =>
      if signed.manifest.version ≠ update.version ∨ signed.manifest.platform ≠ update.platform ∨
          some signed.manifest.sizeBytes ≠ update.sizeBytes ∨
          signed.manifest.sha256 ≠ update.sha256 then
        pure (.refused "update directive disagrees with signed release manifest")
      else do
        match ← attempt (verifyManifest P config.native signed) with
        | .error reason => pure (.refused reason)
        | .ok () =>
          match ← attempt (queueUpdate P W ⟨config.native, config.serverUrl, signed, update.url⟩) with
          | .ok _ => pure (.queued update.version)
          | .error error => pure (.failed error)

/-- `try_update`. No ending ends the loop. -/
def tryUpdate (update : ManagedUpdate) (meeting : Meeting) : Act Ending :=
  match meeting.token with
  | .error error => pure (.noToken error)
  | .ok _ =>
    match meeting.http with
    | .error error => pure (.noClient error)
    | .ok () => do
      let outcome ← applyUpdate P W config update
      pure (.over outcome)

/-- What comes to the loop. -/
inductive Beat where
  /-- The process ends and is started again. -/
  | restarted
  /-- The heartbeat fails. -/
  | unanswered
  /-- The heartbeat is answered, with or without an offer. -/
  | answered (update : Option ManagedUpdate) (meeting : Meeting)

inductive BeatEvent where
  | quiet
  | restarted
  /-- The offer is not tried, as it was before. -/
  | skipped (update : ManagedUpdate)
  | attempted (update : ManagedUpdate) (ending : Ending)
  /-- The process is killed in an attempt. -/
  | killed (update : ManagedUpdate)

/-- The process, its state directory, and what has happened there. -/
structure Agent where
  declinedUpdate : Option ManagedUpdate
  station : Station
  past : Past Station Event

/-- `run_loop`, one beat. -/
def beat (b : Beat) (a : Agent) : BeatEvent × Agent :=
  match b with
  | .restarted => (.restarted, { a with declinedUpdate := none })
  | .unanswered => (.quiet, a)
  | .answered none _ => (.quiet, a)
  | .answered (some update) meeting =>
    if a.declinedUpdate ≠ some update then
      match tryUpdate P W config update meeting ⟨a.station, meeting.script, a.past⟩ with
      | (.ok ending, w) => (.attempted update ending, ⟨some update, w.station, w.trace⟩)
      | (.error _, w) => (.quiet, ⟨a.declinedUpdate, w.station, w.trace⟩)
      | (.killed, w) => (.killed update, ⟨none, w.station, w.trace⟩)
    else (.skipped update, a)

/-- Beats one after another. -/
def beats : List Beat → List BeatEvent → Agent → List BeatEvent × Agent
  | [], history, a => (history, a)
  | b :: rest, history, a =>
    beats rest ((beat P W config b a).1 :: history) (beat P W config b a).2

end Programs

/-- A sequence of beats in a state directory without requests. -/
structure OfferRun where
  ledger : Option UpdateLedger
  config : AgentConfig
  beats : List Beat

def OfferRun.history (P : Platform) (W : Web) (r : OfferRun) : List BeatEvent :=
  (Endpoint.beats P W r.config r.beats [] ⟨none, ⟨r.ledger, ⟨none, none, none, []⟩, []⟩, []⟩).1

/-! ## The statement -/

/-- **What a fault is about**: some are of the content of the offer. Which ones
is left open but for those of the transport, which are not. -/
structure Verdict where
  ofContent : Fault → Bool
  transport : ∀ detail, ofContent (.detailed "package download failed: " detail) = false ∧
    ofContent (.detailed "interrupted package download: " detail) = false

/-- The attempt settles the offer: it was queued, or refused for its content. -/
def Verdict.settles (V : Verdict) : Ending → Bool
  | .noToken _ | .noClient _ => false
  | .over (.queued _) => true
  | .over (.refused reason) => V.ofContent reason
  | .over (.failed error) => V.ofContent error

namespace BeatEvent

/-- What the heartbeat has offered. -/
def offer : BeatEvent → Option ManagedUpdate
  | .quiet | .restarted => none
  | .skipped update | .attempted update _ | .killed update => some update

/-- The attempt at this offer. -/
def attemptAt (update : ManagedUpdate) : BeatEvent → Option Ending
  | .attempted update' ending => if update' = update then some ending else none
  | _ => none

end BeatEvent

/-- How the latest attempt at an offer ended. -/
def latestAttempt (update : ManagedUpdate) (history : List BeatEvent) : Option Ending :=
  history.findSome? (BeatEvent.attemptAt update)

/-- The last attempt of the process, at whatever offer. -/
def lastAttempt : List BeatEvent → Option (ManagedUpdate × Ending)
  | [] => none
  | .attempted update ending :: _ => some (update, ending)
  | .restarted :: _ => none
  | .killed _ :: _ => none
  | .quiet :: history => lastAttempt history
  | .skipped _ :: history => lastAttempt history

/-- **Nothing is skipped that is not settled**: what is skipped was settled by
the latest attempt at it, and what was not is tried again when it is offered
again. -/
structure SkipsSettled (V : Verdict) (history : List BeatEvent) : Prop where
  skips : ∀ later update earlier, history = later ++ .skipped update :: earlier →
    ∃ ending, latestAttempt update earlier = some ending ∧ V.settles ending = true
  retries : ∀ later e update earlier ending, history = later ++ e :: earlier →
    e.offer = some update → latestAttempt update earlier = some ending → V.settles ending = false →
    (∃ ending', e = .attempted update ending') ∨ e = .killed update

/-- **No offer is repeated at once that was not settled**: whenever the process
is offered what it has tried last, the attempt had settled it. -/
def RepeatsSettled (V : Verdict) (history : List BeatEvent) : Prop :=
  ∀ later e update earlier ending, history = later ++ e :: earlier → e.offer = some update →
    lastAttempt earlier = some (update, ending) → V.settles ending = true

/-! ## What is remembered -/

section Memory

variable {P : Platform} {W : Web} {config : AgentConfig} {update : ManagedUpdate}
variable {history earlier : List BeatEvent} {e : BeatEvent} {a : Agent} {ending : Ending}

/-- An attempt ends in one of the ways there are, unless the process is killed. -/
theorem tryUpdate_leads (meeting : Meeting) (w : World) :
    (tryUpdate P W config update meeting).Leads w (fun _ _ => True) (fun _ _ => False)
      (fun _ => True) := by
  have hends : ∀ {α : Type} (x : α) (w : World), (pure x : Act α).Leads w (fun _ _ => True)
      (fun _ _ => False) (fun _ => True) := fun x _ => (Prog.leads_pure x).mpr trivial
  have happlied : (applyUpdate P W config update).Leads w (fun _ _ => True) (fun _ _ => False)
      (fun _ => True) := by
    refine Prog.leads_ite (fun _ => hends _ _) fun _ => Prog.leads_ite (fun _ => hends _ _) fun _ => ?_
    cases update.signedManifest with
    | none => exact hends _ _
    | some signed =>
      refine Prog.leads_ite (fun _ => hends _ _) fun _ => ?_
      refine Prog.leads_bind.mpr (Prog.leads_attempt.mpr ((Prog.leads_true _ w).mono
        (fun _ w₁ _ => ?_) (fun _ w₁ _ => hends _ _) fun _ _ => trivial))
      exact Prog.leads_bind.mpr (Prog.leads_attempt.mpr ((Prog.leads_true _ w₁).mono
        (fun _ _ _ => hends _ _) (fun _ _ _ => hends _ _) fun _ _ => trivial))
  unfold tryUpdate
  cases meeting.token with
  | error _ => exact hends _ _
  | ok _ =>
    cases meeting.http with
    | error _ => exact hends _ _
    | ok _ => exact Prog.leads_bind.mpr (happlied.imp fun _ _ _ => hends _ _)

/-- The process remembers what it has tried last. -/
def Agent.Remembers (a : Agent) (history : List BeatEvent) : Prop :=
  a.declinedUpdate = (lastAttempt history).map Prod.fst

/-- An offer is skipped just when it is what was tried last. -/
def BeatEvent.Follows (e : BeatEvent) (earlier : List BeatEvent) : Prop :=
  ∀ update, e = .skipped update ↔
    e.offer = some update ∧ (lastAttempt earlier).map Prod.fst = some update

/-- One beat. -/
theorem beat_follows (b : Beat) (h : a.Remembers history) :
    (beat P W config b a).1.Follows history ∧
      (beat P W config b a).2.Remembers ((beat P W config b a).1 :: history) := by
  have hquiet : ∀ e : BeatEvent, e.offer = none → e.Follows history := by
    intro e he update
    constructor
    · rintro rfl
      cases he
    · rintro ⟨hoffer, -⟩
      cases he.symm.trans hoffer
  cases b with
  | restarted => exact ⟨hquiet _ rfl, rfl⟩
  | unanswered => exact ⟨hquiet _ rfl, h⟩
  | answered offered meeting =>
    cases offered with
    | none => exact ⟨hquiet _ rfl, h⟩
    | some update =>
      by_cases hdeclined : a.declinedUpdate ≠ some update
      · -- Nothing but this offer is tried, and it was not tried last.
        have htried : ∀ e : BeatEvent, e.offer = some update → (∀ update', e ≠ .skipped update') →
            e.Follows history := by
          intro e he hne update'
          refine ⟨fun hskipped => absurd hskipped (hne update'), fun hlast => ?_⟩
          rw [he] at hlast
          exact absurd (h.trans (hlast.2.trans hlast.1.symm)) hdeclined
        have hends := @tryUpdate_leads P W config update meeting
          ⟨a.station, meeting.script, a.past⟩
        unfold Prog.Leads at hends
        unfold beat
        dsimp only
        rw [if_pos hdeclined]
        rcases htry : tryUpdate P W config update meeting ⟨a.station, meeting.script, a.past⟩
          with ⟨_ | _ | _, w⟩
        · exact ⟨htried _ rfl fun _ heq => (by cases heq), rfl⟩
        · rw [htry] at hends
          exact hends.elim
        · exact ⟨htried _ rfl fun _ heq => (by cases heq), rfl⟩
      · have hskipped : beat P W config (.answered (some update) meeting) a = (.skipped update, a) :=
          if_neg hdeclined
        have hlast : (lastAttempt history).map Prod.fst = some update :=
          h.symm.trans (not_not.mp hdeclined)
        rw [hskipped]
        refine ⟨fun update' => ⟨fun heq => ?_, fun hoffer => ?_⟩, h⟩
        · cases heq
          exact ⟨rfl, hlast⟩
        · cases hoffer.1
          rfl

/-- A run of beats. -/
theorem beats_follow (bs : List Beat) (h : a.Remembers history)
    (hhistory : ∀ later e earlier, history = later ++ e :: earlier → e.Follows earlier) :
    ∀ later e earlier, (beats P W config bs history a).1 = later ++ e :: earlier →
      e.Follows earlier := by
  induction bs generalizing history a with
  | nil => exact hhistory
  | cons b bs ih =>
    obtain ⟨hfollows, hremembers⟩ := @beat_follows P W config history a b h
    exact ih hremembers (each_before_cons hfollows hhistory)

theorem OfferRun.follows (P : Platform) (W : Web) (r : OfferRun) :
    ∀ later e earlier, r.history P W = later ++ e :: earlier → e.Follows earlier :=
  beats_follow r.beats rfl each_before_nil

/-- The last attempt of the process is the latest at that offer. -/
theorem latestAttempt_of_last (h : lastAttempt history = some (update, ending)) :
    latestAttempt update history = some ending := by
  unfold latestAttempt
  induction history with
  | nil => cases h
  | cons e history ih =>
    cases e with
    | attempted update' ending' =>
      cases h
      have hat : BeatEvent.attemptAt update (.attempted update ending) = some ending := if_pos rfl
      rw [List.findSome?_cons, hat]
    | quiet => exact ih h
    | skipped _ => exact ih h
    | restarted => cases h
    | killed _ => cases h

/-- **The loop skips just what is settled, exactly in the runs in which it is
not offered again at once what was not.** -/
theorem skipsSettled_iff (P : Platform) (W : Web) (V : Verdict) (r : OfferRun) :
    SkipsSettled V (r.history P W) ↔ RepeatsSettled V (r.history P W) := by
  have hfollows := r.follows P W
  constructor
  · intro hskips later e update earlier ending heq hoffer hlast
    have hskipped : e = .skipped update := (hfollows later e earlier heq update).mpr
      ⟨hoffer, by rw [hlast]; rfl⟩
    obtain ⟨ending', hlatest, hsettles⟩ := hskips.skips later update earlier (hskipped ▸ heq)
    rw [latestAttempt_of_last hlast] at hlatest
    exact Option.some.inj hlatest ▸ hsettles
  · intro hrepeats
    -- What is skipped was tried last, and that settled it.
    have hskips : ∀ later update earlier, r.history P W = later ++ .skipped update :: earlier →
        ∃ ending, latestAttempt update earlier = some ending ∧ V.settles ending = true := by
      intro later update earlier heq
      obtain ⟨hoffer, hmap⟩ := (hfollows later _ earlier heq update).mp rfl
      obtain ⟨⟨update', ending⟩, hlast, hupdate⟩ := Option.map_eq_some_iff.mp hmap
      cases hupdate
      exact ⟨ending, latestAttempt_of_last hlast,
        hrepeats later _ _ earlier ending heq hoffer hlast⟩
    refine ⟨hskips, fun later e update earlier ending heq hoffer hlatest hopen => ?_⟩
    cases e with
    | quiet => cases hoffer
    | restarted => cases hoffer
    | killed update' => exact .inr (congrArg _ (Option.some.inj hoffer))
    | attempted update' ending' =>
      cases hoffer
      exact .inl ⟨ending', rfl⟩
    | skipped update' =>
      cases hoffer
      obtain ⟨ending', hlatest', hsettles⟩ := hskips later _ earlier heq
      rw [hlatest] at hlatest'
      rw [Option.some.inj hlatest', hsettles] at hopen
      cases hopen

end Memory

/-! ## A token that cannot be had -/

namespace Sample

open Lariska.Sample (platform)

/-- The faults of the transport, by their text. -/
def verdict : Verdict where
  ofContent
    | .detailed message _ =>
      message ≠ "package download failed: " ∧ message ≠ "interrupted package download: "
    | _ => true
  transport _ := ⟨rfl, rfl⟩

def newerUpdate : ManagedUpdate where
  version := offer.signed.manifest.version
  platform := offer.signed.manifest.platform
  sha256 := offer.signed.manifest.sha256
  sizeBytes := some offer.signed.manifest.sizeBytes
  url := offer.url
  signedManifest := some offer.signed

/-- There is no token yet, and then there is one. -/
def tokenLater : OfferRun where
  ledger := none
  config := ⟨offer.config, offer.serverUrl, false⟩
  beats := [.answered (some newerUpdate) ⟨.error (.transient "timed out"), .ok (), []⟩,
    .answered (some newerUpdate) ⟨.ok "token", .ok (), List.replicate 60 idle⟩]

/-- **An offer that is never tried**: it is skipped, as there was no token when
it first came. -/
theorem unasked_offer_skipped : ¬ SkipsSettled verdict (tokenLater.history platform web) := by
  intro hsettled
  have hhistory : tokenLater.history platform web = [] ++ .skipped newerUpdate ::
      [.attempted newerUpdate (.noToken (.transient "timed out"))] := by
    simp [OfferRun.history, tokenLater, beats, beat, tryUpdate, pure]
  obtain ⟨ending, hlatest, hsettles⟩ := hsettled.skips [] newerUpdate _ hhistory
  have hending : latestAttempt newerUpdate
      [.attempted newerUpdate (.noToken (.transient "timed out"))]
      = some (.noToken (.transient "timed out")) := latestAttempt_of_last rfl
  cases hending.symm.trans hlatest
  cases hsettles

end Sample

end Lariska.Endpoint
