import Rollout.Platform.Basic

/-! Platforms that keep a trace of their states. -/

namespace Rollout

variable {σ : Type}

/-- A state with all those that led to it. -/
structure Traced (σ : Type) where
  now : σ
  /-- The states so far, the present one at the end. -/
  visited : List σ

namespace Traced

def start (s : σ) : Traced σ := ⟨s, [s]⟩

def visit (s : Traced σ) (t : σ) : Traced σ := ⟨t, s.visited ++ [t]⟩

end Traced

/-- The platform, with a trace of its states. -/
def Platform.traced (P : Platform σ) : Platform (Traced σ) where
  handle r s := ((P.handle r s.now).1, s.visit (P.handle r s.now).2)
  isCancelled s := P.isCancelled s.now
  elapse s := s.visit (P.elapse s.now)
  isCancelled_handle r s := P.isCancelled_handle r s.now
  isCancelled_elapse s := P.isCancelled_elapse s.now

end Rollout
