import Rollout.Proofs.Deploy.Stability

/-! What a run leaves alone. Its attempts write to the objects that they are reported with and to no
others, so whatever the report does not name is as it was before, and where it was before. -/

namespace Rollout

variable {σ : Type} {P : Platform σ} {policy : StorePolicy} {view : σ → Store} {vars : Variables}
  {configs : List Config} {s : σ}

/-! ### Stores that differ in some objects only -/

namespace Store

variable {touched touched' : String → String → Prop} {s t u : Store}

/-- All objects are still there, in their order and before any new ones, and what has changed or is
new is among those that were touched, which are known by the names of their types and their ids. -/
structure Spares (touched : String → String → Prop) (s t : Store) : Prop where
  ids : ∀ name, s.ids name <+: t.ids name
  others : ∀ {name o}, ¬ touched name o.remote.id →
    (o ∈ t.objectsUnder name ↔ o ∈ s.objectsUnder name)
  new : ∀ {name id}, id ∈ t.ids name → id ∉ s.ids name → touched name id

namespace Spares

theorem refl (touched : String → String → Prop) (s : Store) : Spares touched s s :=
  ⟨fun _ => List.prefix_rfl, fun _ => .rfl, fun h hnot => absurd h hnot⟩

theorem trans (h : Spares touched s t) (h' : Spares touched t u) : Spares touched s u where
  ids name := (h.ids name).trans (h'.ids name)
  others hnot := (h'.others hnot).trans (h.others hnot)
  new {name id} hid hnot := by
    by_cases hmem : id ∈ t.ids name
    · exact h.new hmem hnot
    · exact h'.new hid hmem

theorem mono (h : Spares touched s t) (himp : ∀ name id, touched name id → touched' name id) :
    Spares touched' s t where
  ids := h.ids
  others hnot := h.others fun htouched => hnot (himp _ _ htouched)
  new hid hnot := himp _ _ (h.new hid hnot)

end Spares

theorem Writes.spares {type : ConfigType} {payload : Payload} {id : String}
    (h : Writes policy type payload id s t) :
    Spares (fun name i => name = type.name ∧ i = id) s t where
  ids name := by
    rcases h.ids name with heq | ⟨_, heq⟩
    · rw [heq]
    · exact heq ▸ List.prefix_append _ _
  others := h.others
  new hid hnot := (h.mem_ids_iff.1 hid).resolve_right hnot

end Store

/-! ### Runs -/

/-- The attempts have an object of a type to show for themselves. -/
def Touches (attempts : List (Attempt σ)) (name id : String) : Prop :=
  ∃ a ∈ attempts, a.config.configType.name = name ∧
    ∃ entity, a.result = .ok entity ∧ entity.remoteId = id

namespace Platform.Serves

variable (hserves : P.Serves policy view)

include hserves

theorem spares_attempt {a : Attempt σ} (h : a.Ran P vars)
    (hkept : (view a.before).WellKept policy) :
    (view a.before).Spares (Touches [a]) (view a.after) := by
  have htakes := h.takes hserves hkept
  cases hresult : a.result with
  | error e =>
    rw [hresult] at htakes
    exact htakes.symm ▸ .refl _ _
  | ok entity =>
    rw [hresult] at htakes
    obtain ⟨_, _, hwrites⟩ := htakes
    apply hwrites.spares.mono
    rintro _ _ ⟨rfl, rfl⟩
    exact ⟨a, List.mem_singleton_self a, rfl, entity, hresult, rfl⟩

/-- From one point of a run to a later one only those objects are touched that the attempts in
between came to. -/
theorem spares_timeline {attempts : List (Attempt σ)} {t : σ} (h : Timeline P s attempts t)
    (hran : ∀ a ∈ attempts, a.Ran P vars) (hkept : (view s).WellKept policy) :
    (view t).WellKept policy ∧ (view s).Spares (Touches attempts) (view t) := by
  have hidles : P.Idles fun u v => (view u).WellKept policy → (view v).WellKept policy ∧
      (view u).Spares (Touches attempts) (view v) :=
    ⟨fun _ h => ⟨h, .refl _ _⟩,
      fun h h' hu =>
        have ⟨hv, hspares⟩ := h hu
        have ⟨hw, hspares'⟩ := h' hv
        ⟨hw, hspares.trans hspares'⟩,
      fun u h => (hserves.elapse u).symm ▸ ⟨h, .refl _ _⟩⟩
  refine (h.moves hidles fun a ha hkept' => ?_).1 hkept
  refine ⟨(hran a ha).keeps hserves.keeps_wellKept hkept',
    (hserves.spares_attempt (hran a ha) hkept').mono ?_⟩
  rintro _ _ ⟨b, hb, hrest⟩
  obtain rfl := List.mem_singleton.1 hb
  exact ⟨b, ha, hrest⟩

variable (vars) in
theorem spares_history (environment : String) (configs : List Config)
    (hkept : (view s).WellKept policy) :
    let t := (deployEnvironment P vars environment configs s).2
    (view t).WellKept policy ∧ (view s).Spares (Touches (history P vars configs s)) (view t) :=
  hserves.spares_timeline (timeline_history P vars environment configs s)
    (fun _ ha => (mem_history ha).2) hkept

end Platform.Serves

/-- What an attempt wrote is still there if no later attempt came to it. -/
theorem Timeline.stays_of_untouched {before after : List (Attempt σ)} {a : Attempt σ} {t : σ}
    (h : Timeline P s (before ++ a :: after) t) (hserves : P.Serves policy view)
    (hran : ∀ b ∈ before ++ a :: after, b.Ran P vars) (hkept : (view s).WellKept policy)
    {entity : ResolvedEntity} (hresult : a.result = .ok entity)
    (huntouched : ¬ Touches after a.config.configType.name entity.remoteId) :
    ∃ payload name, a.config.prepare vars a.context = .ok (payload, entity.properties) ∧
      (payload.name.isSome → name = payload.name) ∧
      ⟨⟨entity.remoteId, name, some payload.externalId⟩, payload.scope, payload.content⟩ ∈
        (view t).objectsUnder a.config.configType.name := by
  obtain ⟨hbefore, hafter⟩ := h.split
  obtain ⟨hranBefore, hranRest⟩ := List.forall_mem_append.1 hran
  obtain ⟨hranA, hranAfter⟩ := List.forall_mem_cons.1 hranRest
  have hkeptA := (hserves.spares_timeline hbefore hranBefore hkept).1
  obtain ⟨_, hspares⟩ :=
    hserves.spares_timeline hafter hranAfter (hranA.keeps hserves.keeps_wellKept hkeptA)
  have htakes := hranA.takes hserves hkeptA
  rw [hresult] at htakes
  obtain ⟨payload, hprepare, hwrites⟩ := htakes
  obtain ⟨name, hname, hown⟩ := hwrites.own
  exact ⟨payload, name, hprepare, hname, (hspares.others huntouched).2 ((hown rfl).2 rfl)⟩

theorem exists_last {α : Type} {p : α → Prop} {xs : List α} (h : ∃ x ∈ xs, p x) :
    ∃ before x after, xs = before ++ x :: after ∧ p x ∧ ∀ y ∈ after, ¬ p y := by
  induction xs with
  | nil =>
    obtain ⟨_, hx, _⟩ := h
    cases hx
  | cons x rest ih =>
    by_cases hrest : ∃ y ∈ rest, p y
    · obtain ⟨before, y, after, rfl, hy, hafter⟩ := ih hrest
      exact ⟨x :: before, y, after, rfl, hy, hafter⟩
    · obtain ⟨y, hy, hp⟩ := h
      rcases List.mem_cons.1 hy with rfl | hy
      · exact ⟨[], y, rest, rfl, hp, fun z hz hpz => hrest ⟨z, hz, hpz⟩⟩
      · exact absurd ⟨y, hy, hp⟩ hrest

/-- A config of the type with that name is reported as deployed to the object with that id. -/
def DeployReport.Names (r : DeployReport) (configs : List Config) (name id : String) : Prop :=
  ∃ config ∈ configs, config.configType.name = name ∧
    r.states.get? config.coordinate = some (.deployed id)

/-- Whatever fails, and whether configs know their objects or not: a run touches no object that it
does not report, and one that reports no more than structural errors touches none at all. -/
theorem deployEnvironment_spares (hserves : P.Serves policy view) (vars : Variables)
    (environment : String) (configs : List Config) (s : σ) (hkept : (view s).WellKept policy) :
    let run := deployEnvironment P vars environment configs s
    (view run.2).WellKept policy ∧
      (∀ errors, run.1 = .error errors → view run.2 = view s) ∧
      ∀ report, run.1 = .ok report → (view s).Spares (report.Names configs) (view run.2) := by
  intro run
  obtain ⟨hkept', hspares⟩ := hserves.spares_history vars environment configs hkept
  refine ⟨hkept', fun errors herrors => ?_, fun report hreport => ?_⟩
  · cases hbuild : DependencyGraph.build configs with
    | error _ =>
      have hrun : run = (.error _, s) := deployEnvironment_of_error hbuild environment s
      rw [hrun]
    | ok g =>
      obtain ⟨_, _, hreport, _⟩ := deployEnvironment_completed P vars hbuild environment s
      cases hreport.symm.trans herrors
  · obtain ⟨_, _, _, hcompleted⟩ := completed_of_report hreport
    apply hspares.mono
    rintro name id ⟨a, ha, hname, entity, hresult, hid⟩
    obtain ⟨_, _, _, hstate⟩ := hcompleted.tried ha
    rw [hresult] at hstate
    exact ⟨a.config, hcompleted.attempted a ha, hname, hid ▸ hstate⟩

/-! ### A run on which someone interferes -/

namespace Takeover

/-- Objects from before, of which `x` and `y` have their configs. -/
def crowd : Store :=
  ((store "old").seed (.classicApi "auto-tag") ⟨"y", some "draft", none⟩).seed
    (.classicApi "auto-tag") ⟨"z", some "spare", none⟩

/-- The object of the first tag is locked, and the flag is set when a new one is created. -/
def meddler : Supervisor := fun _ => FaultRule.combine
  [⟨.update, some "shop:auto-tag:draft", ⟨false, some (.forbidden "locked")⟩⟩,
    ⟨.create, none, ⟨true, none⟩⟩]

def meddled : Platform (Supervised Store) := (Store.platform (.numbered [])).supervised meddler

def moreTags : List Config := tags ++ [tag "fresh" none, tag "late" none]

theorem wellKept_crowd : crowd.WellKept (.numbered []) := by
  have hnew : ∀ id, ¬ "object-".toList <+: id.toList → ∀ k n, k ≤ n →
      (StorePolicy.numbered []).newId n ≠ id :=
    fun _ h _ n _ => StorePolicy.newId_numbered_ne h [] n
  refine ((wellKept "old").seed ?_ (hnew "y" (by decide) _)).seed ?_ (hnew "z" (by decide) _)
  · decide +kernel
  · decide +kernel

theorem crowd_spared :
    let run := deployEnvironment meddled (fun _ => none) "dev" moreTags (.start crowd)
    crowd.WellKept (.numbered []) ∧ (∃ report, run.1 = .ok report ∧
        crowd.Spares (report.Names moreTags) run.2.inner) ∧
      (run.2.inner.objectsUnder "auto-tag").map (fun o => (o.remote.id, o.remote.name)) =
        [("x", some "final"), ("y", some "draft"), ("z", some "spare"),
          ("object-0", some "fresh")] := by
  have hreported : (deployEnvironment meddled (fun _ => none) "dev" moreTags
      (.start crowd)).1.isOk = true := by decide +kernel
  have hobjects : ((deployEnvironment meddled (fun _ => none) "dev" moreTags
      (.start crowd)).2.inner.objectsUnder "auto-tag").map (fun o => (o.remote.id, o.remote.name)) =
      [("x", some "final"), ("y", some "draft"), ("z", some "spare"),
        ("object-0", some "fresh")] := by decide +kernel
  have hspares := deployEnvironment_spares ((Store.serves (.numbered [])).supervised meddler)
    (fun _ => none) "dev" moreTags (.start crowd) wellKept_crowd
  dsimp only at hspares
  rw [meddled] at hreported hobjects ⊢
  revert hreported hobjects hspares
  generalize deployEnvironment _ _ _ _ _ = run
  intro hreported hobjects hspares
  cases hrun : run.1 with
  | error _ =>
    rw [hrun] at hreported
    cases hreported
  | ok report =>
    exact ⟨wellKept_crowd, ⟨report, hrun, hspares.2.2 report hrun⟩, hobjects⟩

end Takeover

end Rollout
