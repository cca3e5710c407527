import Mathlib.Data.List.Basic

/-!
# Stateful computations that may fail

A computation runs on a state and ends with a value or an error; the state it has
reached survives an error. A triple states what holds at the end, on success and on
failure, of a run from any state that meets the precondition. The rules follow the
computation: a sequence composes triples, a traversal of a list keeps an invariant
about the elements already visited, an attempted computation never fails.
-/

namespace VeilKnit.Library

variable {ε α β : Type}

/-- A sequence of two results succeeds when both do. -/
theorem except_bind_eq_ok {x : Except ε α} {f : α → Except ε β} {b : β} :
    (x >>= f) = .ok b ↔ ∃ a, x = .ok a ∧ f a = .ok b := by
  cases x with
  | ok a => simp [bind, Except.bind]
  | error e => simp [bind, Except.bind]

/-- A mapped result is a success when the result is. -/
theorem except_map_eq_ok {f : α → β} {x : Except ε α} {b : β} :
    x.map f = .ok b ↔ ∃ a, x = .ok a ∧ f a = b := by
  cases x with
  | ok a => simp [Except.map]
  | error e => simp [Except.map]

/-- A computation that goes on past a check has passed it. -/
theorem except_passed_of_ok {c : Prop} [Decidable c] {e : ε} {f : α → Except ε β}
    {rest : Except ε β} {b : β}
    (h : (if c then (throw e : Except ε α) >>= f else rest) = .ok b) : ¬ c ∧ rest = .ok b := by
  split at h
  case isTrue => cases h
  case isFalse hc => exact ⟨hc, h⟩

/-- A state transformer that ends with a value or an error. -/
def Fallible (ε σ α : Type) := σ → Except ε α × σ

namespace Fallible

variable {ε ε' σ α β : Type}

instance : Monad (Fallible ε σ) where
  pure a w := (.ok a, w)
  bind x f w :=
    match x w with
    | (.ok a, w) => f a w
    | (.error e, w) => (.error e, w)

/-- Fail without touching the state. -/
def throw (e : ε) : Fallible ε σ α := fun w => (.error e, w)

/-- Change the state. -/
def modify (f : σ → σ) : Fallible ε σ Unit := fun w => (.ok (), f w)

/-- A result that is already known. -/
def lift (r : Except ε α) : Fallible ε σ α := fun w => (r, w)

/-- Run and hand over the result, error or not. -/
def attempt (x : Fallible ε σ α) : Fallible ε' σ (Except ε α) := fun w => (.ok (x w).1, (x w).2)

/-- Translate errors. -/
def mapError (f : ε → ε') (x : Fallible ε σ α) : Fallible ε' σ α :=
  fun w => ((x w).1.mapError f, (x w).2)

/-- Visit a list in order and collect the results. -/
def traverse (f : α → Fallible ε σ β) : List α → Fallible ε σ (List β)
  | [] => pure []
  | a :: as => do
    let b ← f a
    let bs ← traverse f as
    pure (b :: bs)

/-- Visit the whole list, whatever fails, and then report the first failure. -/
def gather (f : α → Fallible ε σ β) (as : List α) : Fallible ε σ (List β) := do
  let results ← traverse (fun a => (attempt (f a) : Fallible ε σ (Except ε β))) as
  traverse lift results

variable {x : Fallible ε σ α} {f : α → Fallible ε σ β} {w w' : σ}

theorem bind_ok {a : α} (h : x w = (.ok a, w')) : (x >>= f) w = f a w' := by
  simp [bind, h]

theorem bind_error {e : ε} (h : x w = (.error e, w')) : (x >>= f) w = (.error e, w') := by
  simp [bind, h]

/-- Sequences associate. -/
theorem bind_bind {γ : Type} (x : Fallible ε σ α) (f : α → Fallible ε σ β)
    (g : β → Fallible ε σ γ) : x >>= f >>= g = x >>= fun a => f a >>= g := by
  funext w
  rcases hx : x w with ⟨e | a, w'⟩
  · rw [bind_error hx, bind_error (bind_error hx)]
  · rw [bind_ok hx]
    rcases hf : f a w' with ⟨e | b, w''⟩
    · rw [bind_error hf, bind_error ((bind_ok hx).trans hf)]
    · rw [bind_ok hf, bind_ok ((bind_ok hx).trans hf)]

/-- What a run from a state that meets `P` ends with. -/
def Triple (P : σ → Prop) (x : Fallible ε σ α) (Q : α → σ → Prop) (E : ε → σ → Prop) : Prop :=
  ∀ w, P w →
    match x w with
    | (.ok a, w') => Q a w'
    | (.error e, w') => E e w'

variable {P P' : σ → Prop} {Q Q' : α → σ → Prop} {E E' : ε → σ → Prop}

theorem Triple.ok (h : Triple P x Q E) {a : α} (hw : P w) (hx : x w = (.ok a, w')) : Q a w' := by
  simpa [hx] using h w hw

theorem Triple.error (h : Triple P x Q E) {e : ε}
    (hw : P w) (hx : x w = (.error e, w')) : E e w' := by
  simpa [hx] using h w hw

/-- A computation that cannot fail returns. -/
theorem Triple.returns (h : Triple P x Q fun _ _ => False)
    (hw : P w) : ∃ a w', x w = (.ok a, w') ∧ Q a w' := by
  have hrun := h w hw
  rcases hx : x w with ⟨e | a, w'⟩
  · rw [hx] at hrun
    exact hrun.elim
  · rw [hx] at hrun
    exact ⟨a, w', rfl, hrun⟩

theorem Triple.weaken (h : Triple P' x Q' E')
    (hpre : ∀ w, P w → P' w) (hpost : ∀ a w, Q' a w → Q a w)
    (hfail : ∀ e w, E' e w → E e w) : Triple P x Q E := by
  intro w hw
  have := h w (hpre w hw)
  split at this
  · exact hpost _ _ this
  · exact hfail _ _ this

/-- A part of the precondition that does not look at the state. -/
theorem triple_and_pure {p : Prop} (h : p → Triple P x Q E) : Triple (fun w => P w ∧ p) x Q E :=
  fun w hw => h hw.2 w hw.1

theorem triple_trivial : Triple P x (fun _ _ => True) (fun _ _ => True) := by
  intro w _
  split <;> trivial

theorem triple_pure {a : α} (h : ∀ w, P w → Q a w) : Triple P (pure a : Fallible ε σ α) Q E := h

theorem triple_throw {e : ε} (h : ∀ w, P w → E e w) : Triple P (throw e : Fallible ε σ α) Q E := h

theorem triple_lift {r : Except ε α} (hok : ∀ a, r = .ok a → ∀ w, P w → Q a w)
    (herror : ∀ e, r = .error e → ∀ w, P w → E e w) :
    Triple P (lift r) Q E := by
  intro w hw
  cases r with
  | ok a => exact hok a rfl w hw
  | error e => exact herror e rfl w hw

theorem triple_bind {M : α → σ → Prop} {Q : β → σ → Prop} (hx : Triple P x M E)
    (hf : ∀ a, Triple (M a) (f a) Q E) : Triple P (x >>= f) Q E := by
  intro w hw
  have hmid := hx w hw
  cases hrun : x w with
  | mk r w' =>
    cases r with
    | ok a =>
      rw [hrun] at hmid
      simpa [bind, hrun] using hf a w' hmid
    | error e =>
      rw [hrun] at hmid
      simpa [bind, hrun] using hmid

/-- A first part whose outcome is known. -/
theorem triple_step {v : σ} {a : α} {Q : β → σ → Prop} (hx : x w = (.ok a, v))
    (hf : Triple (fun s => s = v) (f a) Q E) : Triple (fun s => s = w) (x >>= f) Q E := by
  rintro _ rfl
  simpa [bind, hx] using hf v rfl

theorem triple_attempt (h : Triple P x Q E) {R : Except ε α → σ → Prop} {E' : ε' → σ → Prop}
    (hok : ∀ a w, Q a w → R (.ok a) w) (herror : ∀ e w, E e w → R (.error e) w) :
    Triple P (attempt x : Fallible ε' σ (Except ε α)) R E' := by
  intro w hw
  have hx := h w hw
  cases hrun : x w with
  | mk r w' =>
    rw [hrun] at hx
    cases r with
    | ok a => simpa [attempt, hrun] using hok a w' hx
    | error e => simpa [attempt, hrun] using herror e w' hx

theorem triple_mapError {f : ε → ε'} {E' : ε' → σ → Prop} (h : Triple P x Q fun e w => E' (f e) w) :
    Triple P (mapError f x) Q E' := by
  intro w hw
  have hx := h w hw
  cases hrun : x w with
  | mk r w' =>
    rw [hrun] at hx
    cases r with
    | ok a => simpa [mapError, Except.mapError, hrun] using hx
    | error e => simpa [mapError, Except.mapError, hrun] using hx

variable {as : List α}

/-- A traversal keeps an invariant of the visited elements and their results. -/
theorem triple_traverse {I : List α → List β → σ → Prop}
    (h : ∀ before a after bs, as = before ++ a :: after →
      Triple (I before bs) (f a) (fun b => I (before ++ [a]) (bs ++ [b])) E) :
    Triple (I [] []) (traverse f as) (fun bs => I as bs) E := by
  suffices hgen : ∀ before after bs, as = before ++ after →
      Triple (I before bs) (traverse f after) (fun cs => I as (bs ++ cs)) E by
    simpa using hgen [] as [] rfl
  intro before after
  induction after generalizing before with
  | nil =>
    intro bs has
    refine triple_pure fun w hw => ?_
    simpa [has] using hw
  | cons a after ih =>
    intro bs has
    refine triple_bind (h before a after bs has) fun b => ?_
    refine triple_bind (ih (before ++ [a]) (bs ++ [b]) (by simp [has])) fun cs => ?_
    exact triple_pure fun w hw => by simpa using hw

theorem triple_traverse_forall₂ {I : σ → Prop}
    {R : α → β → Prop} (h : ∀ a ∈ as, Triple I (f a) (fun b w => I w ∧ R a b) E) :
    Triple I (traverse f as) (fun bs w => I w ∧ List.Forall₂ R as bs) E := by
  induction as with
  | nil => exact triple_pure fun w hw => ⟨hw, .nil⟩
  | cons a as ih =>
    intro w hw
    have ha := h a List.mem_cons_self
    have hrest := ih fun a' ha' => h a' (List.mem_cons_of_mem _ ha')
    refine triple_bind ha (fun b => ?_) w hw
    intro w hw
    refine triple_bind (M := fun bs w => I w ∧ List.Forall₂ R (a :: as) (b :: bs)) ?_
      (fun bs => triple_pure fun w hw => hw) w hw.1
    exact hrest.weaken (fun _ hw => hw) (fun bs w hbs => ⟨hbs.1, .cons hw.2 hbs.2⟩)
      (fun _ _ hfail => hfail)

/-- Gathering keeps an invariant that each visit keeps, whether it fails or not, and
on success relates every element to its result. It fails only if some visit can:
`C` is what a failed visit shows. -/
theorem triple_gather {I : σ → Prop} {R : α → β → Prop} {C : Prop}
    (h : ∀ a ∈ as, Triple I (f a) (fun b w => I w ∧ R a b) (fun _ w => I w ∧ C)) :
    Triple I (gather f as) (fun bs w => I w ∧ List.Forall₂ R as bs) (fun _ w => I w ∧ C) := by
  have hattempts : Triple I (traverse (fun a => (attempt (f a) : Fallible ε σ (Except ε β))) as)
      (fun rs w => I w ∧
        List.Forall₂ (fun a r => (∀ b, r = .ok b → R a b) ∧ ∀ e, r = .error e → C) as rs)
      (fun _ w => I w ∧ C) := by
    refine triple_traverse_forall₂ fun a ha => triple_attempt (h a ha) ?_ ?_
    · intro b w hw
      refine ⟨hw.1, fun b' hb' => ?_, fun e he => by cases he⟩
      cases hb'
      exact hw.2
    · intro e w hw
      refine ⟨hw.1, fun b' hb' => ?_, fun _ _ => hw.2⟩
      cases hb'
  refine triple_bind hattempts fun rs w hw => ?_
  obtain ⟨hinv, hrs⟩ := hw
  have hfail : ∀ r ∈ rs, ∀ e, r = Except.error e → C := by
    clear hattempts h
    intro r hr
    induction hrs with
    | nil => cases hr
    | cons hr' _ ih =>
      rcases List.mem_cons.mp hr with rfl | hr
      · exact hr'.2
      · exact ih hr
  have hlift : Triple I (traverse (lift : Except ε β → Fallible ε σ β) rs)
      (fun bs w => I w ∧ List.Forall₂ (fun r b => r = .ok b) rs bs)
      (fun _ w => I w ∧ C) :=
    triple_traverse_forall₂ fun r hr =>
      triple_lift (fun b hb w hw => ⟨hw, hb⟩) (fun e he w hw => ⟨hw, hfail r hr e he⟩)
  refine hlift.weaken (fun _ hw => hw) (fun bs w hbs => ⟨hbs.1, ?_⟩) (fun _ _ hw => hw) w hinv
  obtain ⟨_, hbs⟩ := hbs
  clear hlift hattempts h hfail
  induction hrs generalizing bs with
  | nil => cases hbs; exact .nil
  | cons hr _ ih =>
    cases hbs with
    | cons hb hbs => exact .cons (hr.1 _ hb) (ih _ hbs)

/-- Gathering visits that cannot fail follows them one by one. -/
theorem triple_gather_total {I : List α → σ → Prop}
    (h : ∀ before a after, as = before ++ a :: after →
      Triple (I before) (f a) (fun _ w => I (before ++ [a]) w) (fun _ _ => False)) :
    Triple (I []) (gather f as) (fun _ w => I as w) (fun _ _ => False) := by
  have hattempts : Triple (I [])
      (traverse (fun a => (attempt (f a) : Fallible ε σ (Except ε β))) as)
      (fun rs w => I as w ∧ ∀ r ∈ rs, ∃ b, r = .ok b) (fun _ _ => False) := by
    refine (triple_traverse (I := fun before rs w => I before w ∧ ∀ r ∈ rs, ∃ b, r = .ok b)
      fun before a after bs has => ?_).weaken (fun _ hw => ⟨hw, by simp⟩) (fun _ _ hw => hw)
      (fun _ _ hw => hw)
    refine triple_and_pure fun hbs => ?_
    refine triple_attempt (h before a after has) (fun b w hw => ⟨hw, fun r hr => ?_⟩)
      (fun _ _ hfalse => hfalse.elim)
    rcases List.mem_append.mp hr with hr | hr
    · exact hbs r hr
    · exact ⟨b, List.mem_singleton.mp hr⟩
  refine triple_bind hattempts fun rs w hw => ?_
  refine (triple_traverse_forall₂ (I := I as) (R := fun _ _ => True) fun r hr =>
    triple_lift (fun b _ w hw => ⟨hw, trivial⟩) (fun e he _ _ => ?_)).weaken
      (fun _ hw => hw) (fun _ _ hw => hw.1) (fun _ _ hw => hw) w hw.1
  obtain ⟨b, hb⟩ := hw.2 r hr
  rw [hb] at he
  cases he

end Fallible

end VeilKnit.Library
