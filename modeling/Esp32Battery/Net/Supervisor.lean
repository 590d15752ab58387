import Esp32Battery.Lib.Duration
import Esp32Battery.Net.Credentials

/-!
# The network supervisor

One pure transition a tick, over the phases of the WiFi lifecycle.
-/

namespace Esp32Battery

open Lib

def captiveAfterDisconnect : Duration := .fromSecs (2 * 60 * 60)

def captiveTryingTimeout : Duration := .fromSecs 20

inductive LinkState where
  | up
  | down (since : Duration)
deriving DecidableEq

inductive NetPhase where
  | captiveIdle
  | captiveTrying (creds : WifiCredentials) (since : Duration)
  | captiveFallbackRetrying (creds : WifiCredentials)
  | staConnecting (creds : WifiCredentials) (sessionStart : Duration)
  | staServing (creds : WifiCredentials) (link : LinkState)
deriving DecidableEq

inductive NetStatus where
  | captive
  | captiveTrying
  | connecting
  | host
deriving DecidableEq

namespace NetPhase

def lcdStatus : NetPhase → NetStatus
  | captiveIdle | captiveFallbackRetrying _ => .captive
  | captiveTrying _ _ => .captiveTrying
  | staConnecting _ _ => .connecting
  | staServing _ .up => .host
  | staServing _ (.down _) => .connecting

/-- `captiveIdle` has no credentials to associate with. -/
def pollsAssociation : NetPhase → Bool
  | captiveIdle => false
  | _ => true

def sta : NetPhase → Bool
  | staConnecting _ _ | staServing _ _ => true
  | _ => false

def creds : NetPhase → Option WifiCredentials
  | captiveIdle => none
  | captiveTrying creds _ | captiveFallbackRetrying creds | staConnecting creds _
  | staServing creds _ => some creds

end NetPhase

/-- What the firmware is to do with the resources it owns. -/
inductive NetAction where
  | nothing
  | refreshScan
  | applyCreds (creds : WifiCredentials)
  | promoteToSta (creds : WifiCredentials)
  | startMdns
  | markSubmissionFailed
  | fallbackToCaptive (creds : WifiCredentials)
  | forceCaptive
deriving DecidableEq

structure NetPoll where
  now : Duration
  associated : Bool
  submitted : Option WifiCredentials
  resetRequested : Bool
deriving DecidableEq

namespace NetSupervisor

/-- The phase a transition leaves, and what it asks for. -/
structure Step where
  phase : NetPhase
  action : NetAction

namespace Step

def promote (creds : WifiCredentials) : Step where
  phase := .staServing creds .up
  action := .promoteToSta creds

def tryCreds (creds : WifiCredentials) (now : Duration) : Step where
  phase := .captiveTrying creds now
  action := .applyCreds creds

def fallBack (creds : WifiCredentials) : Step where
  phase := .captiveFallbackRetrying creds
  action := .fallbackToCaptive creds

end Step

def step (phase : NetPhase) (p : NetPoll) : Step :=
  if p.resetRequested && phase.sta then ⟨.captiveIdle, .forceCaptive⟩
  else match phase with
    | .captiveIdle =>
      match p.submitted with
      | some creds => .tryCreds creds p.now
      | none => ⟨.captiveIdle, .refreshScan⟩
    | .captiveTrying creds since =>
      -- an association on the pair in flight beats a submission of the same tick
      if p.associated then .promote creds
      else match p.submitted with
        | some newCreds => .tryCreds newCreds p.now
        | none =>
          if captiveTryingTimeout ≤ p.now.saturatingSub since then
            ⟨.captiveIdle, .markSubmissionFailed⟩
          else ⟨.captiveTrying creds since, .nothing⟩
    | .captiveFallbackRetrying creds =>
      if p.associated then .promote creds
      else match p.submitted with
        | some newCreds => .tryCreds newCreds p.now
        | none => ⟨.captiveFallbackRetrying creds, .refreshScan⟩
    | .staConnecting creds sessionStart =>
      if p.associated then ⟨.staServing creds .up, .startMdns⟩
      else if captiveAfterDisconnect ≤ p.now.saturatingSub sessionStart then .fallBack creds
      else ⟨.staConnecting creds sessionStart, .nothing⟩
    | .staServing creds link =>
      let link : LinkState := match p.associated, link with
        | true, _ => .up
        | false, .up => .down p.now
        | false, down => down
      match link with
      | .down since =>
        if captiveAfterDisconnect ≤ p.now.saturatingSub since then .fallBack creds
        else ⟨.staServing creds link, .nothing⟩
      | .up => ⟨.staServing creds link, .nothing⟩

end NetSupervisor

structure NetSupervisor where
  phase : NetPhase
deriving DecidableEq

namespace NetSupervisor

def new (bootCreds : Option WifiCredentials) (now : Duration) : NetSupervisor where
  phase := match bootCreds with
    | some creds => .staConnecting creds now
    | none => .captiveIdle

def tick (s : NetSupervisor) (p : NetPoll) : NetAction × NetSupervisor :=
  let step := step s.phase p
  (step.action, ⟨step.phase⟩)

/-- The actions of a run of ticks, each with its poll, and the supervisor they leave. -/
def run (s : NetSupervisor) : List NetPoll → List (NetPoll × NetAction) × NetSupervisor
  | [] => ([], s)
  | p :: ps =>
    let (a, s) := s.tick p
    let (log, s) := s.run ps
    ((p, a) :: log, s)

theorem run_concat (s : NetSupervisor) (ps : List NetPoll) (p : NetPoll) :
    s.run (ps ++ [p]) = ((s.run ps).1 ++ [(p, ((s.run ps).2.tick p).1)],
      ((s.run ps).2.tick p).2) := by
  induction ps generalizing s with
  | nil => rfl
  | cons q qs ih => simp only [List.cons_append, run, ih]

theorem map_fst_run (s : NetSupervisor) (ps : List NetPoll) :
    (s.run ps).1.map Prod.fst = ps := by
  induction ps generalizing s with
  | nil => rfl
  | cons q qs ih => simp only [run, List.map_cons, ih]

/-- When the station half was first missed, `now` being the first miss of a link that was up. -/
def offSince (now : Duration) : NetPhase → Option Duration
  | .staConnecting _ sessionStart => some sessionStart
  | .staServing _ .up => some now
  | .staServing _ (.down since) => some since
  | _ => none

/-- The transitions, each with its guard. -/
inductive Move (p : NetPoll) : NetPhase → NetAction → NetPhase → Prop
  | reset {phase : NetPhase} : p.resetRequested = true → phase.sta = true →
      Move p phase .forceCaptive .captiveIdle
  | submit {phase : NetPhase} (creds : WifiCredentials) : phase.sta = false →
      p.submitted = some creds → (phase = .captiveIdle ∨ p.associated = false) →
      Move p phase (.applyCreds creds) (.captiveTrying creds p.now)
  | idle : p.submitted = none → Move p .captiveIdle .refreshScan .captiveIdle
  | retry (creds : WifiCredentials) : p.associated = false → p.submitted = none →
      Move p (.captiveFallbackRetrying creds) .refreshScan (.captiveFallbackRetrying creds)
  | promote {phase : NetPhase} (creds : WifiCredentials) : phase.sta = false →
      phase.creds = some creds → p.associated = true →
      Move p phase (.promoteToSta creds) (.staServing creds .up)
  | await (creds : WifiCredentials) (since : Duration) : p.associated = false →
      p.submitted = none → p.now.saturatingSub since < captiveTryingTimeout →
      Move p (.captiveTrying creds since) .nothing (.captiveTrying creds since)
  | fail (creds : WifiCredentials) (since : Duration) : p.associated = false →
      p.submitted = none → captiveTryingTimeout ≤ p.now.saturatingSub since →
      Move p (.captiveTrying creds since) .markSubmissionFailed .captiveIdle
  | connect (creds : WifiCredentials) (sessionStart : Duration) : p.associated = true →
      Move p (.staConnecting creds sessionStart) .startMdns (.staServing creds .up)
  | connecting (creds : WifiCredentials) (sessionStart : Duration) : p.associated = false →
      p.now.saturatingSub sessionStart < captiveAfterDisconnect →
      Move p (.staConnecting creds sessionStart) .nothing (.staConnecting creds sessionStart)
  | up (creds : WifiCredentials) (link : LinkState) : p.associated = true →
      Move p (.staServing creds link) .nothing (.staServing creds .up)
  | down (creds : WifiCredentials) (link : LinkState) (since : Duration) :
      p.associated = false → offSince p.now (.staServing creds link) = some since →
      p.now.saturatingSub since < captiveAfterDisconnect →
      Move p (.staServing creds link) .nothing (.staServing creds (.down since))
  | fallBack {phase : NetPhase} (creds : WifiCredentials) (since : Duration) :
      p.associated = false → phase.creds = some creds → offSince p.now phase = some since →
      captiveAfterDisconnect ≤ p.now.saturatingSub since →
      Move p phase (.fallbackToCaptive creds) (.captiveFallbackRetrying creds)

theorem step_move (phase : NetPhase) (p : NetPoll) :
    Move p phase (step phase p).action (step phase p).phase := by
  unfold step
  by_cases hreset : (p.resetRequested && phase.sta) = true
  · rw [if_pos hreset]
    rw [Bool.and_eq_true] at hreset
    exact .reset hreset.1 hreset.2
  rw [if_neg hreset]
  rcases phase with _ | ⟨creds, since⟩ | creds | ⟨creds, start⟩ | ⟨creds, link⟩
  · rcases hsub : p.submitted with _ | creds
    · exact .idle hsub
    · exact .submit creds rfl hsub (.inl rfl)
  · simp only []
    by_cases ha : p.associated = true
    · rw [if_pos ha]
      exact .promote creds rfl rfl ha
    rw [if_neg ha]
    rw [Bool.not_eq_true] at ha
    split
    · rename_i creds' hsub
      exact .submit creds' rfl hsub (.inr ha)
    · rename_i hsub
      split_ifs with ht
      · exact .fail creds since ha hsub ht
      · exact .await creds since ha hsub (Nat.lt_of_not_le ht)
  · simp only []
    by_cases ha : p.associated = true
    · rw [if_pos ha]
      exact .promote creds rfl rfl ha
    rw [if_neg ha]
    rw [Bool.not_eq_true] at ha
    split
    · rename_i creds' hsub
      exact .submit creds' rfl hsub (.inr ha)
    · rename_i hsub
      exact .retry creds ha hsub
  · simp only []
    split_ifs with ha ht
    · exact .connect creds start ha
    · exact .fallBack creds start (by simpa using ha) rfl rfl ht
    · exact .connecting creds start (by simpa using ha) (Nat.lt_of_not_le ht)
  · simp only []
    rcases ha : p.associated with _ | _
    · rcases link with _ | since
      all_goals
        simp only []
        split_ifs with ht
        · exact .fallBack creds _ ha rfl rfl ht
        · exact .down creds _ _ ha rfl (Nat.lt_of_not_le ht)
    · exact .up creds link ha

theorem tick_move (s : NetSupervisor) (p : NetPoll) :
    Move p s.phase (s.tick p).1 (s.tick p).2.phase :=
  step_move s.phase p

end NetSupervisor

end Esp32Battery
