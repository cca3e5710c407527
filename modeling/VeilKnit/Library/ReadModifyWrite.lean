import Mathlib.Logic.Function.Basic
import VeilKnit.Library.LabelledSystem

/-!
# Reading, editing and writing back

Callers edit one shared content without a lock: a caller reads the whole content, edits its copy,
and writes the copy back. Whatever every edit preserves holds at all times, since each content is
an edit of an earlier one. What an edit has established can be undone by a caller that has read
before it and writes after it; where the content at each write is what the writer has read,
nothing is undone.
-/

namespace VeilKnit.Library

/-- The content, the edits under way with what their callers have read, and the edits that have
been written, the last one first. -/
structure SharedContent (Caller Op Content : Type*) where
  content : Content
  pending : Caller → Option (Op × Content)
  done : List Op

namespace SharedContent

variable {Caller Op Content : Type*} [DecidableEq Caller]

/-- A caller reads, or ends its edit with a write that succeeds or not. -/
inductive Action (Caller Op : Type*)
  | read (caller : Caller) (op : Op)
  | write (caller : Caller) (succeeds : Bool)

variable (edit : Op → Content → Option Content)

/-- An edit that comes to nothing is not written. -/
def next (s : SharedContent Caller Op Content) :
    Action Caller Op → Option (SharedContent Caller Op Content)
  | .read caller op =>
    match s.pending caller with
    | some _ => none
    | none => some { s with pending := Function.update s.pending caller (some (op, s.content)) }
  | .write caller succeeds =>
    match s.pending caller with
    | none => none
    | some (op, seen) =>
      let pending := Function.update s.pending caller none
      match edit op seen with
      | none => some { s with pending := pending }
      | some content =>
        if succeeds then
          some { content := content, pending := pending, done := op :: s.done }
        else some { s with pending := pending }

def system (initially : Content → Prop) :
    LabelledSystem (SharedContent Caller Op Content) (Action Caller Op) where
  initial s := initially s.content ∧ (∀ caller, s.pending caller = none) ∧ s.done = []
  step s action s' := s.next edit action = some s'

/-- The caller that writes finds the content that it has read. -/
def Undisturbed (s : SharedContent Caller Op Content) : Action Caller Op → Prop
  | .read _ _ => True
  | .write caller _ => ∀ op seen, s.pending caller = some (op, seen) → seen = s.content

variable {edit} {s s' : SharedContent Caller Op Content} {action : Action Caller Op}

/-- What a step does: it leaves the content, or puts the edit of what has been read in its place. -/
theorem next_cases (h : s.next edit action = some s') :
    (s'.content = s.content ∧ s'.done = s.done) ∨
      ∃ caller succeeds op seen, action = .write caller succeeds ∧
        s.pending caller = some (op, seen) ∧ edit op seen = some s'.content ∧
        s'.done = op :: s.done := by
  cases action with
  | read caller op =>
    simp only [next] at h
    split at h
    case h_1 => cases h
    case h_2 =>
      cases h
      exact .inl ⟨rfl, rfl⟩
  | write caller succeeds =>
    simp only [next] at h
    split at h
    case h_1 => cases h
    case h_2 op seen hpending =>
    split at h
    case h_1 =>
      cases h
      exact .inl ⟨rfl, rfl⟩
    case h_2 content hedit =>
    split at h
    case isTrue =>
      cases h
      exact .inr ⟨caller, succeeds, op, seen, rfl, hpending, hedit, rfl⟩
    case isFalse =>
      cases h
      exact .inl ⟨rfl, rfl⟩

/-- What a caller has read stays, or was just read. -/
theorem next_pending
    (h : s.next edit action = some s') {caller : Caller} {op : Op} {seen : Content}
    (hpending : s'.pending caller = some (op, seen)) :
    s.pending caller = some (op, seen) ∨ seen = s.content := by
  have hcleared : ∀ other, Function.update s.pending other none caller = some (op, seen) →
      s.pending caller = some (op, seen) := by
    intro other hupdate
    by_cases hcaller : caller = other
    · subst hcaller
      rw [Function.update_self] at hupdate
      cases hupdate
    · rwa [Function.update_of_ne hcaller] at hupdate
  cases action with
  | read other new =>
    simp only [next] at h
    split at h
    case h_1 => cases h
    case h_2 =>
    cases h
    by_cases hcaller : caller = other
    · subst hcaller
      dsimp only at hpending
      rw [Function.update_self] at hpending
      exact .inr (congrArg Prod.snd (Option.some.inj hpending)).symm
    · dsimp only at hpending
      rw [Function.update_of_ne hcaller] at hpending
      exact .inl hpending
  | write other succeeds =>
    simp only [next] at h
    split at h
    case h_1 => cases h
    case h_2 =>
    split at h
    case h_1 =>
      cases h
      exact .inl (hcleared other hpending)
    case h_2 =>
    split at h
    case isTrue =>
      cases h
      exact .inl (hcleared other hpending)
    case isFalse =>
      cases h
      exact .inl (hcleared other hpending)

section Rules

variable {initially P : Content → Prop} (hinitially : ∀ content, initially content → P content)
  (hedit : ∀ op content content', P content → edit op content = some content' → P content')

include hinitially hedit

/-- What every edit preserves holds of the content, and of all that has been read of it. -/
theorem preserved_invariant :
    (system edit initially).Invariant fun s : SharedContent Caller Op Content =>
      P s.content ∧ ∀ caller op seen, s.pending caller = some (op, seen) → P seen where
  initially s hinitial := by
    refine ⟨hinitially _ hinitial.1, fun caller op seen hpending => ?_⟩
    rw [hinitial.2.1 caller] at hpending
    cases hpending
  preserved s action s' hs hstep := by
    refine ⟨?_, fun caller op seen hpending => ?_⟩
    · obtain ⟨hcontent, -⟩ | ⟨caller, succeeds, op, seen, -, hpending, hnew, -⟩ := next_cases hstep
      · rw [hcontent]
        exact hs.1
      · exact hedit op seen _ (hs.2 caller op seen hpending) hnew
    · obtain hbefore | rfl := next_pending hstep hpending
      · exact hs.2 caller op seen hbefore
      · exact hs.1

/-- Where no caller writes over a content that it has not read, what each edit has established
holds from its write on, if no other edit undoes it. -/
theorem established_of_undisturbed {R : Op → Content → Prop}
    (hestablishes : ∀ op content content', P content → edit op content = some content' →
      R op content')
    (hkeeps : ∀ op other content content', P content → R op content →
      edit other content = some content' → R op content')
    {s : SharedContent Caller Op Content}
    (reached : ((system edit initially).restrict Undisturbed).Reachable s) :
    ∀ op ∈ s.done, R op s.content := by
  refine (preserved_invariant hinitially hedit).holds_within
    (P := fun s => ∀ op ∈ s.done, R op s.content) ?_ ?_ reached
  · intro s hinitial op hop
    rw [hinitial.2.2] at hop
    cases hop
  intro s action s' hs hdone hguard hstep op hop
  obtain ⟨hcontent, hsame⟩ | ⟨caller, succeeds, new, seen, rfl, hpending, hnew, hnext⟩ :=
    next_cases hstep
  · rw [hcontent]
    rw [hsame] at hop
    exact hdone op hop
  · obtain rfl := hguard new seen hpending
    rw [hnext] at hop
    obtain rfl | hold := List.mem_cons.mp hop
    · exact hestablishes op _ _ hs.1 hnew
    · exact hkeeps op new _ _ hs.1 (hdone op hold) hnew

end Rules

end SharedContent

end VeilKnit.Library
