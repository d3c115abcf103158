/-
# Sections in a list of actions

The actions of a timer are well nested if none of them leaves a section where none is open. Which
leave belongs to which enter is then said by the actions between the two, which leave exactly the
sections that they enter. A list of actions is read from the left: the sections that are open are a
stack, one more action can end only the innermost of them, and every section that has ended stays
where it is. The same is said of the latest start and the latest stop, and of how many readings of
the clock were taken.
-/

import PointPattern.Timer
import Mathlib.Data.Finset.Prod

namespace PointPattern

namespace TimerAction

/-! ## Definitions -/

/-- How many sections are open after an action, if so many were open before. -/
def nest? : ℕ → TimerAction → Option ℕ
  | depth, .enter _ => some (depth + 1)
  | 0, .leave => none
  | depth + 1, .leave => some depth
  | depth, _ => some depth

/-- How many sections are open after some actions. There is no answer if a section is left where
none is open. -/
def depth? (depth : ℕ) (actions : List TimerAction) : Option ℕ := actions.foldlM nest? depth

/-- The actions leave exactly the sections that they enter. -/
def Balanced (actions : List TimerAction) : Prop := depth? 0 actions = some 0

/-- The actions leave only sections that they have entered. Some may still be open. -/
def WellNested (actions : List TimerAction) : Prop := (depth? 0 actions).isSome = true

/-- A section of a name is entered at one place of the actions and ends at another. -/
def IsBlock (actions : List TimerAction) (name : String) (i j : ℕ) : Prop :=
  actions[i]? = some (.enter name) ∧ actions[j]? = some .leave ∧ i < j ∧
    Balanced ((actions.take j).drop (i + 1))

instance (actions : List TimerAction) : Decidable (Balanced actions) :=
  inferInstanceAs (Decidable (_ = _))

instance (actions : List TimerAction) : Decidable (WellNested actions) :=
  inferInstanceAs (Decidable (_ = _))

instance (actions : List TimerAction) (name : String) (i j : ℕ) :
    Decidable (IsBlock actions name i j) :=
  inferInstanceAs (Decidable (_ ∧ _ ∧ _ ∧ _))

/-- The sections of a name that have ended, by the places at which they are entered and left. -/
def blocks (actions : List TimerAction) (name : String) : Finset (ℕ × ℕ) :=
  (Finset.range actions.length ×ˢ Finset.range actions.length).filter fun b =>
    IsBlock actions name b.1 b.2

/-- The last place before another one at which an action is taken. -/
def LatestBefore (actions : List TimerAction) (action : TimerAction) (n i : ℕ) : Prop :=
  i < n ∧ actions[i]? = some action ∧ ∀ m < n, i < m → actions[m]? ≠ some action

instance (actions : List TimerAction) (action : TimerAction) (n i : ℕ) :
    Decidable (LatestBefore actions action n i) :=
  inferInstanceAs (Decidable (_ ∧ _ ∧ _))

/-- How often the actions read the clock: every one of them does once, except for a stop before
the first start. -/
def readings : List TimerAction → ℕ
  | [] => 0
  | .start :: rest => rest.length + 1
  | .stop :: rest => readings rest
  | _ :: rest => readings rest + 1

variable {actions before rest inner : List TimerAction} {action : TimerAction} {name : String}
variable {entries : List (String × ℕ)} {depth i j n : ℕ}

/-! ## Depth -/

theorem depth?_append (depth : ℕ) (actions rest : List TimerAction) :
    depth? depth (actions ++ rest) = (depth? depth actions).bind (depth? · rest) :=
  List.foldlM_append

theorem depth?_cons (depth : ℕ) (action : TimerAction) (rest : List TimerAction) :
    depth? depth (action :: rest) = (nest? depth action).bind (depth? · rest) :=
  List.foldlM_cons

theorem nest?_add {after : ℕ} (nested : nest? depth action = some after) (outer : ℕ) :
    nest? (depth + outer) action = some (after + outer) := by
  cases action with
  | enter name =>
      cases nested
      rw [nest?, Nat.add_right_comm]
  | leave =>
      cases depth with
      | zero => cases nested
      | succ depth =>
          cases nested
          rw [Nat.add_right_comm, nest?]
  | start | stop =>
      cases nested
      rfl

/-- Sections that are open outside stay open. -/
theorem depth?_add {after : ℕ} (nested : depth? depth actions = some after) (outer : ℕ) :
    depth? (depth + outer) actions = some (after + outer) := by
  induction actions generalizing depth with
  | nil =>
      cases nested
      rfl
  | cons action rest ih =>
      rw [depth?_cons] at nested ⊢
      obtain ⟨next, first, others⟩ := Option.bind_eq_some_iff.1 nested
      rw [nest?_add first, Option.bind_some, ih others]

theorem Balanced.depth?_eq (balanced : Balanced actions) (depth : ℕ) :
    depth? depth actions = some depth := by
  have shifted := depth?_add balanced depth
  rwa [Nat.zero_add] at shifted

theorem Balanced.append (balanced : Balanced actions) (balanced' : Balanced rest) :
    Balanced (actions ++ rest) := by
  rw [Balanced, depth?_append, balanced, Option.bind_some, balanced']

/-- What a section encloses makes up a balanced part of the actions together with both ends of the
section. -/
theorem Balanced.enclosed (balanced : Balanced inner) (name : String) :
    Balanced (.enter name :: inner ++ [.leave]) := by
  rw [Balanced, List.cons_append, depth?_cons, nest?, Option.bind_some, depth?_append,
    balanced.depth?_eq]
  rfl

/-- Where a section is entered that is still open afterwards, the actions are not balanced. -/
theorem not_balanced_of_enter (entered : actions[i]? = some (.enter name))
    (later : Balanced (actions.drop (i + 1))) : ¬ Balanced actions := by
  obtain ⟨inside, entry⟩ := List.getElem?_eq_some_iff.1 entered
  rw [← List.take_append_drop i actions, List.drop_eq_getElem_cons inside, entry, Balanced,
    depth?_append]
  intro whole
  obtain ⟨depth, -, after⟩ := Option.bind_eq_some_iff.1 whole
  rw [depth?_cons, nest?, Option.bind_some, later.depth?_eq] at after
  cases after

/-! ## Open sections -/

/-- The sections that the actions leave open, each by its name and the place at which it is
entered, the innermost first. -/
inductive Opened : List TimerAction → List (String × ℕ) → Prop
  | none {actions : List TimerAction} (balanced : Balanced actions) : Opened actions []
  | more {actions inner : List TimerAction} {entries : List (String × ℕ)} (name : String)
      (opened : Opened actions entries) (balanced : Balanced inner) :
      Opened (actions ++ .enter name :: inner) ((name, actions.length) :: entries)

namespace Opened

theorem depth?_eq (opened : Opened actions entries) :
    depth? 0 actions = some entries.length := by
  induction opened with
  | none balanced => exact balanced
  | more name opened balanced ih =>
      rw [depth?_append, ih, Option.bind_some, depth?_cons, nest?, Option.bind_some,
        balanced.depth?_eq, List.length_cons]

/-- A balanced part neither opens nor ends a section. -/
theorem append (opened : Opened actions entries) (balanced : Balanced rest) :
    Opened (actions ++ rest) entries := by
  cases opened with
  | none balanced' => exact .none (balanced'.append balanced)
  | more name opened balanced' =>
      rw [List.append_assoc, List.cons_append]
      exact .more name opened (balanced'.append balanced)

theorem lt_length (opened : Opened actions entries) {entry : String × ℕ} (mem : entry ∈ entries) :
    entry.2 < actions.length := by
  induction opened with
  | none balanced => cases mem
  | more name opened balanced ih =>
      rw [List.length_append, List.length_cons]
      rcases List.mem_cons.1 mem with rfl | mem
      · exact Nat.lt_add_of_pos_right (Nat.succ_pos _)
      · exact (ih mem).trans_le (Nat.le_add_right _ _)

/-- The innermost section that is open is the one since whose entry the actions are balanced. -/
theorem head?_eq_iff (opened : Opened actions entries) :
    entries.head? = some (name, i) ↔
      actions[i]? = some (.enter name) ∧ Balanced (actions.drop (i + 1)) := by
  cases opened with
  | none balanced =>
      constructor
      · intro innermost
        cases innermost
      · rintro ⟨entered, later⟩
        exact absurd balanced (not_balanced_of_enter entered later)
  | @more before inner entries innermost opened balanced =>
      have entry (outer : List TimerAction) :
          (outer ++ .enter innermost :: inner)[outer.length]? = some (.enter innermost) := by
        rw [List.getElem?_append_right (le_refl _), Nat.sub_self, List.getElem?_cons_zero]
      rw [List.head?_cons, Option.some.injEq, Prod.mk.injEq]
      constructor
      · rintro ⟨rfl, rfl⟩
        rw [List.drop_length_add_append, List.drop_succ_cons, List.drop_zero]
        exact ⟨entry before, balanced⟩
      · rintro ⟨entered, later⟩
        obtain early | rfl | late := Nat.lt_trichotomy i before.length
        · -- The section entered at `before.length` would be open in what follows `i`.
          rw [List.drop_append_of_le_length early] at later
          refine absurd later (not_balanced_of_enter (entry (before.drop (i + 1))) ?_)
          rwa [List.drop_length_add_append, List.drop_succ_cons, List.drop_zero]
        · rw [entry] at entered
          cases entered
          exact ⟨rfl, rfl⟩
        · -- The section entered at `i` would be open in the balanced part.
          obtain ⟨k, rfl⟩ := Nat.exists_eq_add_of_lt late
          rw [Nat.add_assoc, List.getElem?_append_right (Nat.le_add_right _ _),
            Nat.add_sub_cancel_left, List.getElem?_cons_succ] at entered
          rw [Nat.add_assoc, Nat.add_assoc, List.drop_length_add_append, List.drop_succ_cons]
            at later
          exact absurd balanced (not_balanced_of_enter entered later)

theorem enter (opened : Opened actions entries) (name : String) :
    Opened (actions ++ [.enter name]) ((name, actions.length) :: entries) :=
  .more name opened rfl

/-- What is open after the innermost section has ended. -/
theorem leave (opened : Opened actions ((name, i) :: entries)) :
    Opened (actions ++ [.leave]) entries := by
  cases opened with
  | more name opened balanced =>
      rw [List.append_assoc]
      exact opened.append (balanced.enclosed name)

/-- No section ends where none is open. -/
theorem not_wellNested_leave (opened : Opened actions []) :
    ¬ WellNested (actions ++ [.leave]) := by
  intro nested
  rw [WellNested, depth?_append, opened.depth?_eq] at nested
  cases nested

end Opened

/-! ## One more action -/

theorem WellNested.of_append (nested : WellNested (actions ++ rest)) : WellNested actions := by
  rw [WellNested, depth?_append] at nested
  exact Option.isSome_of_isSome_bind nested

/-- A section that ends before the last action has ended without it. -/
theorem isBlock_concat_of_lt (inside : j < actions.length) :
    IsBlock (actions ++ [action]) name i j ↔ IsBlock actions name i j := by
  unfold IsBlock
  rw [List.take_append_of_le_length inside.le, List.getElem?_append_left inside]
  refine ⟨fun ⟨entered, left, lt, balanced⟩ => ⟨?_, left, lt, balanced⟩,
    fun ⟨entered, left, lt, balanced⟩ => ⟨?_, left, lt, balanced⟩⟩
  · rwa [List.getElem?_append_left (lt.trans inside)] at entered
  · rwa [List.getElem?_append_left (lt.trans inside)]

/-- The last action ends the innermost section that was open, or none. -/
theorem isBlock_concat_length_iff (opened : Opened actions entries) :
    IsBlock (actions ++ [action]) name i actions.length ↔
      action = .leave ∧ entries.head? = some (name, i) := by
  unfold IsBlock
  rw [opened.head?_eq_iff, List.getElem?_concat_length, List.take_left, Option.some.injEq]
  constructor
  · rintro ⟨entered, left, lt, balanced⟩
    rw [List.getElem?_append_left lt] at entered
    exact ⟨left, entered, balanced⟩
  · rintro ⟨left, entered, balanced⟩
    have lt := (List.getElem?_eq_some_iff.1 entered).1
    exact ⟨by rwa [List.getElem?_append_left lt], left, lt, balanced⟩

theorem IsBlock.lt_length (block : IsBlock actions name i j) : j < actions.length :=
  (List.getElem?_eq_some_iff.1 block.2.1).1

theorem mem_blocks_iff {b : ℕ × ℕ} : b ∈ blocks actions name ↔ IsBlock actions name b.1 b.2 := by
  rw [blocks, Finset.mem_filter, Finset.mem_product, Finset.mem_range, Finset.mem_range,
    and_iff_right_iff_imp]
  intro block
  exact ⟨block.2.2.1.trans block.lt_length, block.lt_length⟩

/-- The sections that have ended after one more action: those before it, and the innermost that was
open if the action ends it. -/
theorem mem_blocks_concat_iff (opened : Opened actions entries) {b : ℕ × ℕ} :
    b ∈ blocks (actions ++ [action]) name ↔
      b ∈ blocks actions name ∨
        action = .leave ∧ entries.head? = some (name, b.1) ∧ b.2 = actions.length := by
  obtain ⟨i, j⟩ := b
  rw [mem_blocks_iff, mem_blocks_iff]
  dsimp only
  constructor
  · intro block
    have within := block.lt_length
    rw [List.length_append, List.length_singleton, Nat.lt_succ_iff] at within
    obtain inside | rfl := Nat.lt_or_eq_of_le within
    · exact .inl ((isBlock_concat_of_lt inside).1 block)
    · obtain ⟨left, innermost⟩ := (isBlock_concat_length_iff opened).1 block
      exact .inr ⟨left, innermost, rfl⟩
  · rintro (block | ⟨left, innermost, rfl⟩)
    · exact (isBlock_concat_of_lt block.lt_length).2 block
    · exact (isBlock_concat_length_iff opened).2 ⟨left, innermost⟩

/-- No section ends otherwise than by being left. -/
theorem blocks_concat_of_ne (opened : Opened actions entries) (stays : action ≠ .leave)
    (name : String) : blocks (actions ++ [action]) name = blocks actions name := by
  ext b
  rw [mem_blocks_concat_iff opened, or_iff_left fun left => stays left.1]

/-- The innermost section that was open ends. -/
theorem blocks_concat_leave (opened : Opened actions ((name, i) :: entries)) :
    blocks (actions ++ [.leave]) name = insert (i, actions.length) (blocks actions name) := by
  ext ⟨k, j⟩
  rw [mem_blocks_concat_iff opened, Finset.mem_insert, or_comm]
  simp [eq_comm]

theorem blocks_concat_leave_of_ne {other : String} (opened : Opened actions ((name, i) :: entries))
    (differs : other ≠ name) : blocks (actions ++ [.leave]) other = blocks actions other := by
  ext ⟨k, j⟩
  rw [mem_blocks_concat_iff opened, List.head?_cons]
  simp [differs.symm]

/-- The latest of the actions before a place is not changed by what comes after the place. -/
theorem latestBefore_append_iff (rest : List TimerAction) (within : n ≤ actions.length) :
    LatestBefore (actions ++ rest) action n i ↔ LatestBefore actions action n i := by
  have same {m : ℕ} (lt : m < n) : (actions ++ rest)[m]? = actions[m]? :=
    List.getElem?_append_left (lt.trans_le within)
  refine and_congr_right fun lt => and_congr (by rw [same lt]) ?_
  exact forall₂_congr fun m lt => by rw [same lt]

/-- The last action is the latest of its kind. -/
theorem latestBefore_concat_self :
    LatestBefore (actions ++ [action]) action (actions ++ [action]).length i ↔
      i = actions.length := by
  have final : (actions ++ [action])[actions.length]? = some action := List.getElem?_concat_length
  rw [List.length_append, List.length_singleton]
  constructor
  · rintro ⟨lt, -, none_between⟩
    rcases Nat.lt_succ_iff_lt_or_eq.1 lt with lt | rfl
    · exact absurd final (none_between actions.length (Nat.lt_succ_self _) lt)
    · rfl
  · rintro rfl
    exact ⟨Nat.lt_succ_self _, final, fun m lt gt => by omega⟩

/-- The latest action of a kind stays the latest after an action of another. -/
theorem latestBefore_concat_of_ne {last : TimerAction} (other : last ≠ action) :
    LatestBefore (actions ++ [last]) action (actions ++ [last]).length i ↔
      LatestBefore actions action actions.length i := by
  have final : (actions ++ [last])[actions.length]? ≠ some action := by
    rw [List.getElem?_concat_length]
    exact fun same => other (Option.some.inj same)
  rw [List.length_append, List.length_singleton,
    ← latestBefore_append_iff [last] (le_refl _)]
  constructor
  · rintro ⟨lt, taken, none_between⟩
    rcases Nat.lt_succ_iff_lt_or_eq.1 lt with lt | rfl
    · exact ⟨lt, taken, fun m lt' gt => none_between m (Nat.lt_succ_of_lt lt') gt⟩
    · exact absurd taken final
  · rintro ⟨lt, taken, none_between⟩
    refine ⟨Nat.lt_succ_of_lt lt, taken, fun m lt' gt => ?_⟩
    rcases Nat.lt_succ_iff_lt_or_eq.1 lt' with lt' | rfl
    · exact none_between m lt' gt
    · exact final

/-- An action that is taken before a place is taken at a latest place before it. -/
theorem exists_latestBefore (taken : actions[i]? = some action) (lt : i < n) :
    ∃ j, LatestBefore actions action n j := by
  induction n with
  | zero => omega
  | succ n ih =>
      by_cases last : actions[n]? = some action
      · exact ⟨n, n.lt_succ_self, last, fun m lt gt => by omega⟩
      · have earlier : i < n := by
          rcases Nat.lt_succ_iff_lt_or_eq.1 lt with lt | rfl
          · exact lt
          · exact absurd taken last
        obtain ⟨j, lt', taken', none_between⟩ := ih earlier
        refine ⟨j, Nat.lt_succ_of_lt lt', taken', fun m lt gt => ?_⟩
        rcases Nat.lt_succ_iff_lt_or_eq.1 lt with lt | rfl
        · exact none_between m lt gt
        · exact last

/-! ## Readings of the clock -/

theorem readings_concat (actions : List TimerAction) (action : TimerAction) :
    readings (actions ++ [action]) =
      readings actions + if action = .stop ∧ .start ∉ actions then 0 else 1 := by
  induction actions with
  | nil => cases action <;> rfl
  | cons first rest ih =>
      cases first with
      | start => simp [readings]
      | stop => simpa [readings] using ih
      | enter name | leave => simp [readings, ih, Nat.add_right_comm]

/-- An action reads the clock unless it is a stop before the first start. -/
theorem readings_concat_of_reads (reads : action = .stop → .start ∈ actions) :
    readings (actions ++ [action]) = readings actions + 1 := by
  rw [readings_concat, if_neg fun ⟨stops, fresh⟩ => fresh (reads stops)]

theorem readings_le_append (actions rest : List TimerAction) :
    readings actions ≤ readings (actions ++ rest) := by
  induction rest using List.reverseRecOn with
  | nil => rw [List.append_nil]
  | append_singleton rest last ih =>
      rw [← List.append_assoc, readings_concat]
      exact ih.trans (Nat.le_add_right _ _)

/-- An action that reads the clock takes another reading than those before it. -/
theorem readings_take_lt (taken : actions[j]? = some action)
    (reads : action = .stop → .start ∈ actions.take j) :
    readings (actions.take j) < readings actions := by
  obtain ⟨inside, entry⟩ := List.getElem?_eq_some_iff.1 taken
  have one_more : actions.take (j + 1) = actions.take j ++ [action] := by
    rw [List.take_succ_eq_append_getElem inside, entry]
  calc readings (actions.take j) < readings (actions.take (j + 1)) := by
        rw [one_more, readings_concat_of_reads reads]
        exact Nat.lt_succ_self _
    _ ≤ readings (actions.take (j + 1) ++ actions.drop (j + 1)) := readings_le_append _ _
    _ = readings actions := by rw [List.take_append_drop]

theorem readings_take_le (actions : List TimerAction) (le : i ≤ j) :
    readings (actions.take i) ≤ readings (actions.take j) := by
  rw [← List.take_append_drop i (actions.take j), List.take_take, Nat.min_eq_left le]
  exact readings_le_append _ _

end TimerAction

end PointPattern
