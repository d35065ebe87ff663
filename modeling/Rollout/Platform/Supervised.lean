import Rollout.Platform.Memory

/-! A supervisor in front of a platform. It writes down the calls, and before a request is carried
out it may set the cancellation flag or answer with an error of its own. -/

namespace Rollout

/-- What the supervisor does to a request. -/
structure Intervention where
  cancels : Bool
  /-- The answer, if the request does not reach the platform. -/
  error : Option PlatformError

def Intervention.nothing : Intervention := ⟨false, none⟩

/-- Interventions may depend on the calls before a request and on the request. -/
abbrev Supervisor := List Call → Request → Intervention

/-- The state of a platform under supervision. -/
structure Supervised (σ : Type) where
  inner : σ
  cancelled : Bool
  /-- The calls so far, in order. -/
  calls : List Call

namespace Supervised

variable {σ : Type}

def start (inner : σ) : Supervised σ := ⟨inner, false, []⟩

def handle (supervisor : Supervisor) (P : Platform σ) (r : Request) :
    StateM (Supervised σ) r.Outcome := fun s =>
  let intervention := supervisor s.calls r
  let answer : r.Outcome × σ := match intervention.error with
    | some e => (.error e, s.inner)
    | none => P.handle r s.inner
  (answer.1, ⟨answer.2, s.cancelled || intervention.cancels, s.calls ++ [⟨r, answer.1⟩]⟩)

end Supervised

/-- The platform behind a supervisor. A run stops when either of the two asks for it. -/
def Platform.supervised {σ : Type} (supervisor : Supervisor) (P : Platform σ) :
    Platform (Supervised σ) where
  handle := Supervised.handle supervisor P
  isCancelled s := s.cancelled || P.isCancelled s.inner
  elapse s := { s with inner := P.elapse s.inner }
  isCancelled_handle r s h := by
    simp only [Supervised.handle, Bool.or_eq_true] at h ⊢
    refine h.imp .inl fun h => ?_
    split
    · exact h
    · exact P.isCancelled_handle r _ h
  isCancelled_elapse s h := by
    simp only [Bool.or_eq_true] at h ⊢
    exact h.imp_right (P.isCancelled_elapse _)

/-- A store that just takes down its calls. -/
def Store.logged (policy : StorePolicy) : Platform (Supervised Store) :=
  (Store.platform policy).supervised fun _ _ => .nothing

/-! ### Faults by rule -/

inductive RequestKind
  | list
  | create
  | update
  | delete
deriving DecidableEq

def Request.kind : Request → RequestKind
  | .list _ => .list
  | .create _ _ => .create
  | .update _ _ _ => .update
  | .delete _ _ => .delete

/-- What a request is about: the type to list, the config to create or update, the object to delete.
-/
def Request.subject : Request → String
  | .list type => type.name
  | .create _ payload => payload.coordinate.display
  | .update _ _ payload => payload.coordinate.display
  | .delete _ id => id

/-- An intervention in all requests of a kind, or in those about one subject. -/
structure FaultRule where
  kind : RequestKind
  subject : Option String
  intervention : Intervention

namespace FaultRule

def matchesRequest (rule : FaultRule) (r : Request) : Bool :=
  rule.kind = r.kind && (rule.subject.isNone || rule.subject = some r.subject)

/-- All matching rules in order, up to the first one that answers the request. -/
def combine (rules : List FaultRule) (r : Request) : Intervention :=
  match rules with
  | [] => .nothing
  | rule :: rest =>
    if rule.matchesRequest r then
      match rule.intervention.error with
      | some e => ⟨rule.intervention.cancels, some e⟩
      | none =>
        let after := combine rest r
        ⟨rule.intervention.cancels || after.cancels, after.error⟩
    else combine rest r

end FaultRule

end Rollout
