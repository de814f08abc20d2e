import MoneyLaundering.Logging.WriteAhead

/-!
# What an observer sees of a handler

Of the effects of a handler, an observer sees the messages it publishes and, at each record it
appends, the observation of its state change. A crash cuts this sequence off somewhere. That is all
that can be said about a sound handler: `outcome_visible`.
-/

namespace WriteAhead

variable {K S R O V : Type*} [DecidableEq K]

/-- What an observer sees of one effect. -/
inductive Visible (V O : Type*)
  | send (o : O)
  | become (v : V)

namespace Visible

def sent : List (Visible V O) → List O
  | [] => []
  | .send o :: es => o :: sent es
  | .become _ :: es => sent es

/-- The observation at the end. -/
def settle (v : V) : List (Visible V O) → V
  | [] => v
  | .send _ :: es => settle v es
  | .become v' :: es => settle v' es

@[simp] theorem sent_nil : sent ([] : List (Visible V O)) = [] := rfl

@[simp] theorem sent_send (o : O) (es : List (Visible V O)) :
    sent (.send o :: es) = o :: sent es := rfl

@[simp] theorem sent_become (v : V) (es : List (Visible V O)) :
    sent (.become v :: es) = sent es := rfl

@[simp] theorem settle_nil (v : V) : settle v ([] : List (Visible V O)) = v := rfl

@[simp] theorem settle_send (v : V) (o : O) (es : List (Visible V O)) :
    settle v (.send o :: es) = settle v es := rfl

@[simp] theorem settle_become (v v' : V) (es : List (Visible V O)) :
    settle v (.become v' :: es) = settle v' es := rfl

@[simp] theorem sent_map_send (os : List O) (es : List (Visible V O)) :
    sent (os.map .send ++ es) = os ++ sent es := by
  induction os with
  | nil => rfl
  | cons o os ih => exact congrArg (o :: ·) ih

@[simp] theorem settle_map_send (v : V) (os : List O) (es : List (Visible V O)) :
    settle v (os.map .send ++ es) = settle v es := by
  induction os with
  | nil => rfl
  | cons o os ih => exact ih

theorem sent_sends (os : List O) : sent (os.map .send : List (Visible V O)) = os := by
  simpa using sent_map_send (V := V) os []

theorem settle_sends (v : V) (os : List O) : settle v (os.map .send : List (Visible V O)) = v := by
  simpa using settle_map_send v os []

theorem sent_record (os : List O) (v : V) : sent (os.map .send ++ [.become v]) = os := by
  rw [sent_map_send, sent_become, sent_nil, List.append_nil]

theorem settle_record (v v' : V) (os : List O) : settle v (os.map .send ++ [.become v']) = v' := by
  rw [settle_map_send, settle_become, settle_nil]

/-- A sequence that publishes and then changes the observation once is cut off either before the
change or not at all. -/
theorem prefix_map_send {os : List O} {v : V} {es : List (Visible V O)}
    (h : es <+: os.map .send ++ [.become v]) :
    (∃ os', os' <+: os ∧ es = os'.map .send) ∨ es = os.map .send ++ [.become v] := by
  rcases List.prefix_concat_iff.mp h with heq | hpre
  · exact Or.inr heq
  · refine Or.inl ?_
    rw [List.prefix_iff_eq_take] at hpre
    refine ⟨os.take es.length, List.take_prefix _ _, ?_⟩
    rw [List.map_take]
    exact hpre

end Visible

namespace View

variable {D : Discipline S R} (ν : View D V)

/-- What an observer sees of the effects of a handler that starts at the observation `v`. -/
def visible : V → List (Effect S R O) → List (Visible V O)
  | _, [] => []
  | v, .publish o :: es => .send o :: visible v es
  | v, .append r :: es => .become (ν.apply r v) :: visible (ν.apply r v) es
  | v, .checkpoint _ :: es => visible v es

theorem sent_visible (v : V) (es : List (Effect S R O)) :
    Visible.sent (ν.visible v es) = publishes es := by
  induction es generalizing v with
  | nil => rfl
  | cons e es ih =>
    cases e with
    | publish o => exact congrArg (o :: ·) (ih v)
    | append r => exact ih _
    | checkpoint s => exact ih v

theorem settle_visible (v : V) (es : List (Effect S R O)) :
    Visible.settle v (ν.visible v es) = ν.applyAll (appends es) v := by
  induction es generalizing v with
  | nil => rfl
  | cons e es ih =>
    cases e with
    | publish o => exact ih v
    | append r => exact ih _
    | checkpoint s => exact ih v

theorem visible_map_publish (v : V) (os : List O) (es : List (Effect S R O)) :
    ν.visible v (os.map .publish ++ es) = os.map .send ++ ν.visible v es := by
  induction os with
  | nil => rfl
  | cons o os ih => exact congrArg (Visible.send o :: ·) ih

theorem visible_upTo (v : V) (point : Option ℕ) (es : List (Effect S R O)) :
    ν.visible v (upTo point es) <+: ν.visible v es := by
  cases point with
  | none => exact List.prefix_refl _
  | some n =>
    rw [upTo]
    induction es generalizing v n with
    | nil => rw [List.take_nil]
    | cons e es ih =>
      cases n with
      | zero => exact List.nil_prefix
      | succ n =>
        rw [List.take_succ_cons]
        cases e with
        | publish o => exact List.cons_prefix_cons.mpr ⟨rfl, ih v n⟩
        | append r => exact List.cons_prefix_cons.mpr ⟨rfl, ih _ n⟩
        | checkpoint s => exact ih v n

/-- **What an observer sees of a handler run**: the first few of the visible effects, and all of
them when the handler completes. -/
theorem outcome_visible (happly : ∀ r s, D.Settled (D.apply r s)) {st st' : Store K S R} {k : K}
    {s : S} {es : List (Effect S R O)} {point : Option ℕ} {outs : List O} {b : Bool}
    (h : D.Outcome st k s es point outs st' b) (hsync : ν.Synced st k)
    (hc : ν.Consistent (ν.view (st.mem k)) es)
    (hfinal : ν.view s = ν.applyAll (appends es) (ν.view (st.mem k))) (hset : D.Settled s) :
    ∃ seen, seen <+: ν.visible (ν.view (st.mem k)) es ∧
      (point = none → seen = ν.visible (ν.view (st.mem k)) es) ∧ outs = Visible.sent seen ∧
      ν.Synced st' k ∧ ν.view (st'.mem k) = Visible.settle (ν.view (st.mem k)) seen := by
  obtain ⟨houts, hsync', hview⟩ := ν.outcome_view happly h hsync hc hfinal hset
  refine ⟨ν.visible (ν.view (st.mem k)) (upTo point es), ν.visible_upTo _ _ _, ?_, ?_, hsync', ?_⟩
  · rintro rfl
    rfl
  · rw [houts, sent_visible]
  · rw [hview, settle_visible]

end View

end WriteAhead
