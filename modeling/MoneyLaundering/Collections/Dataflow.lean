import Mathlib.Data.List.Infix
import Mathlib.Logic.Function.Basic
import Mathlib.Logic.Relation

/-!
# Components that publish to each other

A system of components and of channels between them. A channel has one sender, one receiver and a
number of queues. What the sender publishes is put in the queues that accept it, in the order of its
publication but any time later, and each component works at its own pace.

What happens to one component is its `History`. If no channel leads back, properties of the channels
can be shown one component at a time: `holds_of_reachable` takes them from the channels into a
component to the channels out of it, and says that they hold in all reachable states. A component
may be replaced by one that refines it: `exists_reachable_of_refines`.
-/

namespace Dataflow

/-- A component of a system with channels in `G` and messages in `M`. -/
structure Component (G M : Type) where
  State : Type
  initial : State
  /-- A message is put in a queue of a channel. -/
  Receives : State → G → ℕ → M → State → Prop
  /-- The component does something, and publishes messages meanwhile. -/
  Works : State → List M → State → Prop

/-- What may have happened to a component: what was put in its queues, and what it has published. -/
inductive Component.History {G M : Type} [DecidableEq G] (c : Component G M) :
    (G → ℕ → List M) → List M → c.State → Prop
  | initial : c.History (fun _ _ ↦ []) [] c.initial
  | receives {arrived : G → ℕ → List M} {published : List M} {s s' : c.State} {g : G}
      {q : ℕ} {m : M}
      (h : c.History arrived published s) (hreceives : c.Receives s g q m s') :
      c.History (Function.update arrived g (Function.update (arrived g) q (arrived g q ++ [m])))
        published s'
  | works {arrived : G → ℕ → List M} {published more : List M} {s s' : c.State}
      (h : c.History arrived published s) (hworks : c.Works s more s') :
      c.History arrived (published ++ more) s'

/-- What arrives where each channel has one queue. -/
def singleQueues {G M : Type} (queues : G → List M) : G → ℕ → List M := fun g q ↦
  if q = 0 then queues g else []

theorem Component.History.initial_single {G M : Type} [DecidableEq G] (c : Component G M) :
    c.History (singleQueues fun _ ↦ []) [] c.initial := by
  have hnothing : (singleQueues fun _ ↦ [] : G → ℕ → List M) = fun _ _ ↦ [] := by
    funext g q
    rw [singleQueues, ite_self]
  rw [hnothing]
  exact .initial

/-- A queue in which nothing has arrived may be named. -/
theorem Component.History.name_single {G M : Type} [DecidableEq G] {c : Component G M}
    {queues : G → List M} {published : List M} {s : c.State}
    (h : c.History (singleQueues queues) published s) (g : G) (hempty : queues g = []) :
    c.History (singleQueues (Function.update queues g [])) published s := by
  rwa [← hempty, Function.update_eq_self]

theorem Component.History.receives_single {G M : Type} [DecidableEq G] {c : Component G M}
    {queues : G → List M} {g : G} {queue published : List M} {s s' : c.State} {m : M}
    (h : c.History (singleQueues (Function.update queues g queue)) published s)
    (hreceives : c.Receives s g 0 m s') :
    c.History (singleQueues (Function.update queues g (queue ++ [m]))) published s' := by
  have hqueues : Function.update (singleQueues (Function.update queues g queue)) g
      (Function.update (singleQueues (Function.update queues g queue) g) 0
        (singleQueues (Function.update queues g queue) g 0 ++ [m]))
      = singleQueues (Function.update queues g (queue ++ [m])) := by
    funext g' q
    by_cases hg : g' = g <;> by_cases hq : q = 0 <;> simp [singleQueues, hg, hq]
  exact hqueues ▸ h.receives hreceives

/-- A component does something a number of times. -/
inductive Component.WorksMany {G M : Type} (c : Component G M) : c.State → List M → c.State → Prop
  | refl (s : c.State) : c.WorksMany s [] s
  | tail {s t u : c.State} {more more' : List M} (h : c.WorksMany s more t)
      (hworks : c.Works t more' u) : c.WorksMany s (more ++ more') u

theorem Component.WorksMany.single {G M : Type} {c : Component G M} {s t : c.State} {more : List M}
    (h : c.Works s more t) : c.WorksMany s more t := .tail (.refl s) h

theorem Component.WorksMany.trans {G M : Type} {c : Component G M} {s t u : c.State}
    {more more' : List M} (h : c.WorksMany s more t) (h' : c.WorksMany t more' u) :
    c.WorksMany s (more ++ more') u := by
  induction h' with
  | refl => rwa [List.append_nil]
  | tail _ hworks ih =>
    rw [← List.append_assoc]
    exact .tail ih hworks

/-- A component does nothing that another one cannot do, as far as one can see from its messages. -/
structure Component.Refines {G M : Type} (c c' : Component G M) (R : c.State → c'.State → Prop) :
    Prop where
  initial : R c.initial c'.initial
  receives : ∀ {s t : c.State} {s' : c'.State} {g : G} {q : ℕ} {m : M}, R s s' →
    c.Receives s g q m t → ∃ t', c'.Receives s' g q m t' ∧ R t t'
  works : ∀ {s t : c.State} {s' : c'.State} {more : List M}, R s s' → c.Works s more t →
    ∃ t', c'.WorksMany s' more t' ∧ R t t'

theorem Component.Refines.refl {G M : Type} (c : Component G M) : c.Refines c Eq where
  initial := rfl
  receives := by
    rintro s t s' g q m rfl hreceives
    exact ⟨t, hreceives, rfl⟩
  works := by
    rintro s t s' more rfl hworks
    exact ⟨t, .single hworks, rfl⟩

theorem Component.Refines.congr {G M : Type} {c c' : Component G M}
    {R R' : c.State → c'.State → Prop}
    (h : c.Refines c' R) (hR : ∀ s s', R s s' ↔ R' s s') : c.Refines c' R' := by
  obtain rfl : R = R' := funext fun s ↦ funext fun s' ↦ propext (hR s s')
  exact h

/-- Components, and the channels between them. -/
structure System (C G M : Type) where
  component : C → Component G M
  sender : G → C
  receiver : G → C
  /-- The message is put in this queue of the channel. -/
  accepts : G → ℕ → M → Bool

namespace System

variable {C G M : Type} (sys : System C G M)

structure State where
  state : ∀ c, (sys.component c).State
  published : C → List M
  /-- What has been put in a queue so far. -/
  arrived : G → ℕ → List M

def initial : sys.State where
  state c := (sys.component c).initial
  published _ := []
  arrived _ _ := []

/-- What is published to a queue. -/
def routed (published : C → List M) (g : G) (q : ℕ) : List M :=
  (published (sys.sender g)).filter (sys.accepts g q)

variable [DecidableEq C] [DecidableEq G]

variable {sys} in
/-- A component has done something. -/
def State.work (s : sys.State) (c : C) (more : List M) (state : (sys.component c).State) :
    sys.State where
  state := Function.update s.state c state
  published := Function.update s.published c (s.published c ++ more)
  arrived := s.arrived

variable {sys} in
/-- A message has been put in a queue. -/
def State.deliver (s : sys.State) (g : G) (q : ℕ) (m : M)
    (state : (sys.component (sys.receiver g)).State) : sys.State where
  state := Function.update s.state (sys.receiver g) state
  published := s.published
  arrived := Function.update s.arrived g (Function.update (s.arrived g) q (s.arrived g q ++ [m]))

inductive Step : sys.State → sys.State → Prop
  | works {s : sys.State} {c : C} {more : List M} {state : (sys.component c).State}
      (hworks : (sys.component c).Works (s.state c) more state) : Step s (s.work c more state)
  /-- The next message is put in a queue. -/
  | delivers {s : sys.State} {g : G} {q : ℕ} {m : M}
      {state : (sys.component (sys.receiver g)).State}
      (hnext : s.arrived g q ++ [m] <+: sys.routed s.published g q)
      (hreceives :
        (sys.component (sys.receiver g)).Receives (s.state (sys.receiver g)) g q m state) :
      Step s (s.deliver g q m state)

def Reachable (s : sys.State) : Prop := Relation.ReflTransGen sys.Step sys.initial s

variable {sys} {s s' : sys.State}

theorem Reachable.works (h : sys.Reachable s) (c : C) (more : List M)
    (state : (sys.component c).State) (hworks : (sys.component c).Works (s.state c) more state) :
    sys.Reachable (s.work c more state) := h.tail (.works hworks)

theorem Reachable.delivers (h : sys.Reachable s) (g : G) (q : ℕ) (m : M)
    (state : (sys.component (sys.receiver g)).State)
    (hnext : s.arrived g q ++ [m] <+: sys.routed s.published g q)
    (hreceives : (sys.component (sys.receiver g)).Receives (s.state (sys.receiver g)) g q m state) :
    sys.Reachable (s.deliver g q m state) := h.tail (.delivers hnext hreceives)

omit [DecidableEq G] in
theorem work_nil (s : sys.State) (c : C) : s.work c [] (s.state c) = s := by
  rw [State.work, List.append_nil, Function.update_eq_self, Function.update_eq_self]

omit [DecidableEq G] in
theorem work_work (s : sys.State) (c : C) (more more' : List M)
    (state state' : (sys.component c).State) :
    (s.work c more state).work c more' state' = s.work c (more ++ more') state' := by
  simp only [State.work, Function.update_idem, Function.update_self, List.append_assoc]

theorem Reachable.worksMany (h : sys.Reachable s) (c : C) (more : List M)
    (state : (sys.component c).State)
    (hworks : (sys.component c).WorksMany (s.state c) more state) :
    sys.Reachable (s.work c more state) := by
  induction hworks with
  | refl => rwa [work_nil]
  | @tail t u more more' _ hlast ih =>
    rw [← work_work s c more more' t u]
    refine ih.works c more' u ?_
    simp only [State.work, Function.update_self]
    exact hlast

/-! ## One component after another -/

/-- Nothing has happened to a component. -/
structure Untouched (s : sys.State) (c : C) : Prop where
  state : s.state c = (sys.component c).initial
  published : s.published c = []
  arrived : ∀ g, sys.receiver g = c → s.arrived g = fun _ ↦ []

/-- A component has gone through a history of its own. -/
def State.proceed (s : sys.State) (c : C) (arrived : G → ℕ → List M) (published : List M)
    (state : (sys.component c).State) : sys.State where
  state := Function.update s.state c state
  published := Function.update s.published c published
  arrived g := if sys.receiver g = c then arrived g else s.arrived g

omit [DecidableEq C] [DecidableEq G] in
theorem untouched_initial (c : C) : Untouched sys.initial c := ⟨rfl, rfl, fun _ _ ↦ rfl⟩

omit [DecidableEq G] in
theorem Untouched.proceed {c c' : C} (h : Untouched s c') (hne : c' ≠ c) (arrived : G → ℕ → List M)
    (published : List M) (state : (sys.component c).State) :
    Untouched (s.proceed c arrived published state) c' where
  state := (Function.update_of_ne hne _ _).trans h.state
  published := (Function.update_of_ne hne _ _).trans h.published
  arrived g hg := (if_neg fun heq ↦ hne (hg.symm.trans heq)).trans (h.arrived g hg)

omit [DecidableEq G] in
theorem Untouched.proceed_initial {c : C} (h : Untouched s c) :
    s.proceed c (fun _ _ ↦ []) [] (sys.component c).initial = s := by
  have harrived : (fun g ↦ if sys.receiver g = c then fun _ ↦ [] else s.arrived g) = s.arrived := by
    funext g
    by_cases hg : sys.receiver g = c
    · rw [if_pos hg, h.arrived g hg]
    · rw [if_neg hg]
  rw [State.proceed, ← h.state, ← h.published, Function.update_eq_self, Function.update_eq_self,
    h.published, harrived]

omit [DecidableEq G] in
theorem routed_proceed {c : C} {arrived : G → ℕ → List M} {published : List M}
    {state : (sys.component c).State} {g : G} (hg : sys.sender g ≠ c) (q : ℕ) :
    sys.routed (s.proceed c arrived published state).published g q
      = sys.routed s.published g q := by
  simp only [State.proceed, routed, Function.update_of_ne hg]

/-- Putting a message in a queue changes no other queue. -/
theorem prefix_update (arrived : G → ℕ → List M) (g g' : G) (q q' : ℕ) (m : M) :
    arrived g' q' <+:
      Function.update arrived g (Function.update (arrived g) q (arrived g q ++ [m])) g' q' := by
  by_cases hg : g' = g
  · subst hg
    rw [Function.update_self]
    by_cases hq : q' = q
    · subst hq
      rw [Function.update_self]
      exact List.prefix_append _ _
    · rw [Function.update_of_ne hq]
  · rw [Function.update_of_ne hg]

/-- **One component after another.** A component to which nothing has happened can go through any
history in which nothing arrives that was not published. -/
theorem Reachable.proceed (h : sys.Reachable s) {c : C} (huntouched : Untouched s c)
    (hself : ∀ g, sys.receiver g = c → sys.sender g ≠ c) {arrived : G → ℕ → List M}
    {published : List M} {state : (sys.component c).State}
    (hhistory : (sys.component c).History arrived published state)
    (harrives : ∀ g q, arrived g q <+:
      if sys.receiver g = c then sys.routed s.published g q else []) :
    sys.Reachable (s.proceed c arrived published state) := by
  induction hhistory with
  | initial => rwa [huntouched.proceed_initial]
  | @works arrived published more state state' _ hworks ih =>
    have hnext := (ih harrives).works c more state' (by
      simp only [State.proceed, Function.update_self]
      exact hworks)
    simpa only [State.work, State.proceed, Function.update_self, Function.update_idem] using hnext
  | @receives arrived published state state' g q m _ hreceives ih =>
    have hqueue : Function.update arrived g
        (Function.update (arrived g) q (arrived g q ++ [m])) g q = arrived g q ++ [m] := by
      rw [Function.update_self, Function.update_self]
    have hreach := ih fun g' q' ↦ (prefix_update arrived g g' q q' m).trans (harrives g' q')
    have hlast := harrives g q
    rw [hqueue] at hlast
    have hg : sys.receiver g = c := by
      by_contra hg
      rw [if_neg hg] at hlast
      exact absurd (List.prefix_nil.mp hlast) (List.concat_ne_nil m _)
    rw [if_pos hg] at hlast
    subst hg
    have hnext := hreach.delivers g q m state'
      (by
        rw [routed_proceed (hself g rfl)]
        simpa only [State.proceed, if_true] using hlast)
      (by simpa only [State.proceed, Function.update_self] using hreceives)
    have hstate : (s.proceed (sys.receiver g) arrived published state).deliver g q m state'
        = s.proceed (sys.receiver g) (Function.update arrived g
            (Function.update (arrived g) q (arrived g q ++ [m]))) published state' := by
      simp only [State.deliver, State.proceed, Function.update_idem, if_true]
      congr 1
      funext g'
      by_cases hg : g' = g
      · subst hg
        rw [Function.update_self, if_pos rfl, Function.update_self]
      · simp only [Function.update_of_ne hg]
    rwa [hstate] at hnext

/-- What arrives in the only queue of a channel is what was published for it. -/
def Supplied (s : sys.State) (c : C) (queues : G → List M) : Prop :=
  ∀ g, queues g ≠ [] → sys.receiver g = c ∧ queues g = sys.routed s.published g 0

omit [DecidableEq C] [DecidableEq G] in
theorem supplied_nil (s : sys.State) (c : C) : Supplied s c fun _ ↦ [] :=
  fun _ hne ↦ absurd rfl hne

omit [DecidableEq C] in
theorem Supplied.update {c : C} {queues : G → List M} (h : Supplied s c queues) {g : G}
    {queue : List M} (hreceiver : sys.receiver g = c)
    (hrouted : queue = sys.routed s.published g 0) :
    Supplied s c (Function.update queues g queue) := by
  intro g' hne
  by_cases hg : g' = g
  · subst hg
    rw [Function.update_self]
    exact ⟨hreceiver, hrouted⟩
  · rw [Function.update_of_ne hg] at hne ⊢
    exact h g' hne

/-- The components of the list have reached the state, one after another. -/
structure ReachedBy (s : sys.State) (done : List C) : Prop where
  reachable : sys.Reachable s
  untouched : ∀ c ∉ done, Untouched s c

theorem reachedBy_initial : ReachedBy sys.initial [] := ⟨.refl, fun c _ ↦ untouched_initial c⟩

/-- The next component, where each channel has one queue. -/
theorem ReachedBy.proceed {done : List C} (h : ReachedBy s done) {c : C} (hc : c ∉ done)
    (hself : ∀ g, sys.receiver g = c → sys.sender g ≠ c) {queues : G → List M}
    {published : List M} {state : (sys.component c).State}
    (hhistory : (sys.component c).History (singleQueues queues) published state)
    (hsupplied : Supplied s c queues) :
    ReachedBy (s.proceed c (singleQueues queues) published state) (c :: done) where
  reachable := by
    refine h.reachable.proceed (h.untouched c hc) hself hhistory fun g q ↦ ?_
    rw [singleQueues]
    split
    · next hq =>
      by_cases hempty : queues g = []
      · rw [hempty]
        exact List.nil_prefix
      · obtain ⟨hreceiver, hrouted⟩ := hsupplied g hempty
        rw [if_pos hreceiver, hrouted, hq]
    · exact List.nil_prefix
  untouched c' hc' := by
    obtain ⟨hne, hdone⟩ := List.ne_and_not_mem_of_not_mem_cons hc'
    exact (h.untouched c' hdone).proceed hne _ _ _

/-! ## One component -/

/-- The queues of the component, as they are in the system. -/
def Sees (arrived : G → ℕ → List M) (s : sys.State) (c : C) : Prop :=
  ∀ g, sys.receiver g = c → arrived g = s.arrived g

/-- Every component has a history, and what has arrived was published. -/
structure Local (s : sys.State) : Prop where
  exists_history : ∀ c, ∃ arrived,
    (sys.component c).History arrived (s.published c) (s.state c) ∧ Sees arrived s c
  arrived_initial : ∀ g q, s.arrived g q <+: sys.routed s.published g q

theorem Local.works (h : Local s) {c : C} {more : List M} {state : (sys.component c).State}
    (hworks : (sys.component c).Works (s.state c) more state) : Local (s.work c more state) := by
  refine ⟨fun c' ↦ ?_, fun g q ↦ (h.arrived_initial g q).trans ?_⟩
  · obtain ⟨arrived, hhistory, hsees⟩ := h.exists_history c'
    refine ⟨arrived, ?_, hsees⟩
    by_cases hc : c' = c
    · subst hc
      simp only [State.work, Function.update_self]
      exact hhistory.works hworks
    · simpa only [State.work, Function.update_of_ne hc] using hhistory
  · by_cases hsender : sys.sender g = c
    · subst hsender
      simp only [State.work, routed, Function.update_self, List.filter_append]
      exact List.prefix_append _ _
    · simp only [State.work, routed, Function.update_of_ne hsender]
      exact List.prefix_refl _

theorem Local.delivers (h : Local s) {g : G} {q : ℕ} {m : M}
    {state : (sys.component (sys.receiver g)).State}
    (hnext : s.arrived g q ++ [m] <+: sys.routed s.published g q)
    (hreceives : (sys.component (sys.receiver g)).Receives (s.state (sys.receiver g)) g q m state) :
    Local (s.deliver g q m state) := by
  refine ⟨fun c ↦ ?_, fun g' q' ↦ ?_⟩
  · obtain ⟨arrived, hhistory, hsees⟩ := h.exists_history c
    by_cases hc : c = sys.receiver g
    · subst hc
      simp only [State.deliver, Function.update_self]
      refine ⟨_, hhistory.receives hreceives, fun g' hg' ↦ ?_⟩
      by_cases hg : g' = g
      · subst hg
        simp only [Function.update_self, hsees g' rfl]
      · simp only [Function.update_of_ne hg]
        exact hsees g' hg'
    · refine ⟨arrived, by simpa only [State.deliver, Function.update_of_ne hc] using hhistory,
        fun g' hg' ↦ ?_⟩
      have hg : g' ≠ g := by
        rintro rfl
        exact hc hg'.symm
      exact (hsees g' hg').trans (Function.update_of_ne hg _ _).symm
  · by_cases hg : g' = g
    · subst hg
      by_cases hq : q' = q
      · subst hq
        simpa only [State.deliver, Function.update_self] using hnext
      · simpa only [State.deliver, Function.update_self, Function.update_of_ne hq] using
          h.arrived_initial g' q'
    · simpa only [State.deliver, Function.update_of_ne hg] using h.arrived_initial g' q'

theorem local_of_reachable (hreach : sys.Reachable s) : Local s := by
  induction hreach with
  | refl => exact ⟨fun c ↦ ⟨_, .initial, fun _ _ ↦ rfl⟩, fun _ _ ↦ List.nil_prefix⟩
  | tail _ hstep ih =>
    cases hstep with
    | works hworks => exact ih.works hworks
    | delivers hnext hreceives => exact ih.delivers hnext hreceives

/-! ## From component to component -/

omit [DecidableEq C] [DecidableEq G] in
/-- What holds of a channel if it holds of the channels into its sender holds of all channels. -/
theorem forall_of_rank (rank : C → ℕ) (hrank : ∀ g, rank (sys.sender g) < rank (sys.receiver g))
    {P : G → Prop} (h : ∀ g, (∀ g', sys.receiver g' = sys.sender g → P g') → P g)
    (g : G) : P g := by
  -- the channels into the sender of `g` have senders of smaller rank
  generalize hr : rank (sys.sender g) = r
  induction r using Nat.strong_induction_on generalizing g with
  | _ r ih => exact h g fun g' hg' ↦ ih _ (hr ▸ hg' ▸ hrank g') g' rfl

omit [DecidableEq C] in
/-- The properties of the channels in one state hold if each component, as it is in that state,
passes them on. -/
theorem holds_of_local (rank : C → ℕ) (hrank : ∀ g, rank (sys.sender g) < rank (sys.receiver g))
    (Holds : G → (ℕ → List M) → Prop)
    (hinitial : ∀ g queues queues', (∀ q, queues' q <+: queues q) → Holds g queues →
      Holds g queues')
    (hlocal : Local s)
    (hkeeps : ∀ c arrived, (sys.component c).History arrived (s.published c) (s.state c) →
      Sees arrived s c → (∀ g, sys.receiver g = c → Holds g (s.arrived g)) →
      ∀ g, sys.sender g = c → Holds g fun q ↦ (s.published c).filter (sys.accepts g q)) (g : G) :
    Holds g (s.arrived g) := by
  refine forall_of_rank rank hrank (P := fun g ↦ Holds g (s.arrived g)) (fun g ih ↦ ?_) g
  obtain ⟨arrived, hhistory, hsees⟩ := hlocal.exists_history (sys.sender g)
  exact hinitial g _ _ (hlocal.arrived_initial g) (hkeeps _ arrived hhistory hsees ih g rfl)

/-- **The rule for properties of the channels.** They hold in all reachable states if each
component, given that they hold of the channels into it, makes them hold of the channels out of
it. -/
theorem holds_of_reachable (rank : C → ℕ) (hrank : ∀ g, rank (sys.sender g) < rank (sys.receiver g))
    (Holds : G → (ℕ → List M) → Prop)
    (hinitial : ∀ g queues queues', (∀ q, queues' q <+: queues q) → Holds g queues →
      Holds g queues')
    (hkeeps : ∀ c arrived published state, (sys.component c).History arrived published state →
      (∀ g, sys.receiver g = c → Holds g (arrived g)) →
      ∀ g, sys.sender g = c → Holds g fun q ↦ published.filter (sys.accepts g q))
    (hreach : sys.Reachable s) (g : G) : Holds g (s.arrived g) := by
  refine holds_of_local rank hrank Holds hinitial (local_of_reachable hreach)
    (fun c arrived hhistory hsees hholds g hg ↦ ?_) g
  refine hkeeps c arrived _ _ hhistory (fun g' hg' ↦ ?_) g hg
  rw [hsees g' hg']
  exact hholds g' hg'

/-! ## Components that do no more than others -/

/-- The system with other components. -/
def withComponents (sys : System C G M) (component : C → Component G M) : System C G M :=
  { sys with component }

/-- **The rule for refinement.** If each component is refined by another one, the system that the
other ones make up can publish and deliver nothing that the system could not. -/
theorem exists_reachable_of_refines {component : C → Component G M}
    {R : ∀ c, (component c).State → (sys.component c).State → Prop}
    (h : ∀ c, (component c).Refines (sys.component c) (R c))
    {s : (sys.withComponents component).State}
    (hreach : (sys.withComponents component).Reachable s) :
    ∃ t : sys.State, sys.Reachable t ∧ t.published = s.published ∧ t.arrived = s.arrived ∧
      ∀ c, R c (s.state c) (t.state c) := by
  have hupdate {s : ∀ c, (component c).State} {t : ∀ c, (sys.component c).State}
      (hstates : ∀ c, R c (s c) (t c)) {c : C} {state : (component c).State}
      {state' : (sys.component c).State} (hR : R c state state') (c' : C) :
      R c' (Function.update s c state c') (Function.update t c state' c') := by
    by_cases hc : c' = c
    · subst hc
      rwa [Function.update_self, Function.update_self]
    · rw [Function.update_of_ne hc, Function.update_of_ne hc]
      exact hstates c'
  induction hreach with
  | refl => exact ⟨_, .refl, rfl, rfl, fun c ↦ (h c).initial⟩
  | tail _ hstep ih =>
    obtain ⟨t, hreach, hpublished, harrived, hstates⟩ := ih
    cases hstep with
    | @works c more state hworks =>
      obtain ⟨state', hworks', hR⟩ := (h c).works (hstates c) hworks
      refine ⟨_, hreach.worksMany c more state' hworks', ?_, harrived, hupdate hstates hR⟩
      simp only [State.work, hpublished]
    | @delivers g q m state hnext hreceives =>
      obtain ⟨state', hreceives', hR⟩ := (h _).receives (hstates _) hreceives
      refine ⟨_, hreach.delivers g q m state' ?_ hreceives', hpublished, ?_, hupdate hstates hR⟩
      · rw [harrived, hpublished]
        exact hnext
      · simp only [State.deliver, harrived]

end System

end Dataflow
