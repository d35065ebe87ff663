import Rollout.Platform.Supervised
import Rollout.Proofs.Deploy.Runs
import Rollout.Proofs.Platform.Index

/-! Platforms that keep a store but may fail: a request is carried out on the store or answered with
an error, and the flag may be set at any time. -/

namespace Rollout

variable {σ : Type} {P : Platform σ} {policy : StorePolicy} {view : σ → Store}

/-- The platform keeps the store that `view` shows. -/
structure Platform.Serves (P : Platform σ) (policy : StorePolicy) (view : σ → Store) : Prop where
  /-- Carried out, or refused. -/
  handle : ∀ r s,
    (P.handle r s).1 = (Store.handle policy r (view s)).1 ∧
        view (P.handle r s).2 = (Store.handle policy r (view s)).2 ∨
      (∃ e, (P.handle r s).1 = .error e) ∧ view (P.handle r s).2 = view s
  elapse : ∀ s, view (P.elapse s) = view s

theorem Store.serves (policy : StorePolicy) : (Store.platform policy).Serves policy id where
  handle _ _ := .inl ⟨rfl, rfl⟩
  elapse _ := rfl

namespace Platform.Serves

theorem supervised (h : P.Serves policy view) (supervisor : Supervisor) :
    (P.supervised supervisor).Serves policy (view ·.inner) where
  handle r s := by
    dsimp only [Platform.supervised, Supervised.handle]
    cases (supervisor s.calls r).error with
    | some e => exact .inr ⟨⟨e, rfl⟩, rfl⟩
    | none => exact h.handle r s.inner
  elapse s := h.elapse s.inner

/-- An accepted request was carried out. -/
theorem of_ok (h : P.Serves policy view) {r : Request} {s : σ} {reply : r.Reply}
    (hok : (P.handle r s).1 = .ok reply) :
    (Store.handle policy r (view s)).1 = .ok reply ∧
      view (P.handle r s).2 = (Store.handle policy r (view s)).2 := by
  rcases h.handle r s with ⟨hanswer, hview⟩ | ⟨⟨e, herror⟩, _⟩
  · exact ⟨hanswer.symm.trans hok, hview⟩
  · cases herror.symm.trans hok

theorem view_list (h : P.Serves policy view) (type : ConfigType) (s : σ) :
    view (P.handle (.list type) s).2 = view s := by
  rcases h.handle (.list type) s with ⟨_, hview⟩ | ⟨_, hview⟩
  · exact hview
  · exact hview

end Platform.Serves

/-! ### Fitting requests -/

/-- Requests that fit the store move the state along `R`, and so does time. -/
structure Platform.Tracks (P : Platform σ) (view : σ → Store) (R : σ → σ → Prop) : Prop
    extends P.Idles R where
  handle : ∀ r s, (view s).Fits r → R s (P.handle r s).2

/-- The store of one state is a well-kept extension of that of another. -/
def Grows (policy : StorePolicy) (view : σ → Store) (s t : σ) : Prop :=
  (view s).WellKept policy → (view t).WellKept policy ∧ (view s).Extends (view t)

theorem Grows.of_view_eq {s t : σ} (h : view t = view s) : Grows policy view s t :=
  fun hkept => ⟨h ▸ hkept, h ▸ .refl _⟩

theorem Platform.Serves.tracks (h : P.Serves policy view) : P.Tracks view (Grows policy view) where
  refl _ := .of_view_eq rfl
  trans h h' := fun hkept =>
    have ⟨hkept, hext⟩ := h hkept
    have ⟨hkept', hext'⟩ := h' hkept
    ⟨hkept', hext.trans hext'⟩
  elapse s := .of_view_eq (h.elapse s)
  handle r s hfits := by
    rcases h.handle r s with ⟨_, hview⟩ | ⟨_, hview⟩
    · intro hkept
      rw [hview]
      exact hkept.handle hfits
    · exact .of_view_eq hview

end Rollout
