import Rollout.Platform.Basic

/-! Platforms on which no run is told to stop. -/

namespace Rollout.Platform

variable {σ : Type}

/-- The platform without its flag. -/
def unstoppable (P : Platform σ) : Platform σ where
  handle := P.handle
  isCancelled _ := false
  elapse := P.elapse
  isCancelled_handle _ _ h := h

/-- The platform without its flag and without the passing of time. -/
def timeless (P : Platform σ) : Platform σ where
  handle := P.handle
  isCancelled _ := false
  isCancelled_handle _ _ h := h

end Rollout.Platform
