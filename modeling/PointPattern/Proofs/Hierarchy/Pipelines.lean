/-
# Pipelines see every result exactly once

Results may be attached while others are delivered, so that one pipeline has seen a result before
another one hears of an earlier result. Nevertheless, the calls that evaluate one result are made in
the order in which they become due, none is left out, and none is made twice. They become due when
the result is attached, to the pipelines that are open then and to no others, and whenever a
pipeline is run on the root.
-/

import PointPattern.Proofs.Hierarchy.Owed
import PointPattern.Proofs.Hierarchy.Roster

namespace PointPattern

variable {ν κ : Type}

/-! ## What is due -/

section Listeners

variable [DecidableEq κ] {seen met : List (Listener κ)}

/-- Pipelines that are met once are notified in the order in which they are met. -/
theorem filterMap_mark (nodup : (met.filterMap Listener.pipeline?).Nodup)
    (new : ∀ number ∈ met.filterMap Listener.pipeline?, Listener.pipeline number ∉ seen) :
    (mark seen met).reverse.filterMap Listener.pipeline? =
      seen.reverse.filterMap Listener.pipeline? ++ met.filterMap Listener.pipeline? := by
  induction met generalizing seen with
  | nil => simp [mark]
  | cons listener met ih =>
      rw [mark_cons]
      cases listener with
      | callback callback =>
          simp only [List.filterMap_cons, Listener.pipeline?] at nodup new ⊢
          split
          · exact ih nodup new
          · rw [ih nodup (by simpa using new)]
            simp [Listener.pipeline?]
      | pipeline number =>
          simp only [List.filterMap_cons, Listener.pipeline?, List.nodup_cons] at nodup new ⊢
          have unseen := new number List.mem_cons_self
          rw [if_neg unseen, ih nodup.2]
          · simp [Listener.pipeline?]
          · intro other mem
            have different : other ≠ number := fun same => nodup.1 (same ▸ mem)
            simp [different, new other (List.mem_cons_of_mem _ mem)]

theorem filterMap_eraseDups (nodup : (met.filterMap Listener.pipeline?).Nodup) :
    met.eraseDups.filterMap Listener.pipeline? = met.filterMap Listener.pipeline? := by
  rw [← reverse_mark_nil, filterMap_mark nodup (by simp)]
  rfl

end Listeners

variable [DecidableEq ν]

/-- Whether a call evaluates a result. -/
def Call.evaluates (result : Node ν) : Call ν κ → Bool
  | .evaluate _ _ evaluated => evaluated = result
  | .notify _ _ _ => false

/-- The calls of pipelines with the given evaluators for a result, one pipeline after the other. -/
def evaluationsBy (roster : List (ℕ × List κ)) (base result : Node ν) : List (Call ν κ) :=
  roster.flatMap fun entry => entry.2.map fun evaluator => .evaluate evaluator base result

namespace Session

variable {s : Session ν κ} {child parent result : Node ν} {number : ℕ}

theorem filter_evaluations (s : Session ν κ) (number : ℕ) (child result : Node ν) :
    (s.evaluations number child).filter (·.evaluates result) =
      if child = result then s.evaluations number result else [] := by
  rw [evaluations_eq, List.filter_map]
  split
  · next same =>
      subst same
      rw [evaluations_eq]
      simp [Call.evaluates, Function.comp_def]
  · next different => simp [Call.evaluates, Function.comp_def, different]

theorem filter_callsOf (s : Session ν κ) (child parent : Node ν) (listener : Listener κ) :
    (s.callsOf child parent listener).filter (·.evaluates result) =
      if child = result then listener.pipeline?.toList.flatMap (s.evaluations · result)
      else [] := by
  cases listener with
  | callback callback => simp [callsOf, Call.evaluates, Listener.pipeline?]
  | pipeline number => simp [callsOf, filter_evaluations, Listener.pipeline?]

theorem flatMap_listening (s : Session ν κ) (result : Node ν) :
    s.listening.flatMap (s.evaluations · result) =
      evaluationsBy s.roster s.hierarchy.root result := by
  simp only [evaluationsBy, roster, List.flatMap_map, evaluations_eq]

/-- On a way to the root one meets exactly the pipelines that listen. -/
theorem Enlists.filterMap_path (enlists : s.Enlists) (mem : parent ∈ s.hierarchy.nodes) :
    (((parent :: s.hierarchy.ancestorsOf parent).flatMap s.hierarchy.listenersAt).map
      (·.listener)).filterMap Listener.pipeline? = s.listening := by
  have tree := enlists.sound.tree
  have root_mem : s.hierarchy.root ∈ parent :: s.hierarchy.ancestorsOf parent := by
    rw [← tree.getLast_path parent mem]
    exact List.getLast_mem _
  have silent (nodes : List (Node ν)) (absent : s.hierarchy.root ∉ nodes) :
      nodes.flatMap (fun n => (s.hierarchy.listenersAt n).filterMap (·.listener.pipeline?)) =
        [] := by
    simp only [List.flatMap_eq_nil_iff, List.filterMap_eq_nil_iff]
    intro n n_mem x x_mem
    cases found : x.listener.pipeline? with
    | none => rfl
    | some number =>
        have at_root := enlists.at_root x_mem (Listener.pipeline?_eq_some.1 found)
        exact absurd (at_root ▸ n_mem) absent
  obtain ⟨below, above, path_eq⟩ := List.append_of_mem root_mem
  have nodup := tree.nodup_path parent mem
  rw [path_eq] at nodup ⊢
  have not_below : s.hierarchy.root ∉ below := fun below_mem =>
    List.disjoint_of_nodup_append nodup below_mem List.mem_cons_self
  have not_above : s.hierarchy.root ∉ above :=
    (List.nodup_cons.1 (List.nodup_append.1 nodup).2.1).1
  rw [List.filterMap_map, List.filterMap_flatMap, List.flatMap_append, List.flatMap_cons]
  simp only [Function.comp_def, silent below not_below, silent above not_above]
  exact List.append_nil _

variable [DecidableEq κ]

/-- A node that is announced is evaluated by the pipelines that listen, and nothing else is. -/
theorem Enlists.filter_announcements (enlists : s.Enlists) (mem : parent ∈ s.hierarchy.nodes) :
    (s.announcements child parent).filter (·.evaluates result) =
      if child = result then evaluationsBy s.roster s.hierarchy.root result else [] := by
  rw [announcements, callsAhead, List.filter_flatMap]
  simp only [filter_callsOf]
  split
  · have met := enlists.filterMap_path mem
    have once := filterMap_eraseDups (met ▸ enlists.ordered.nodup)
    simp only [List.contains_nil, Bool.not_false, List.filter_true]
    rw [← List.flatMap_assoc, ← List.filterMap_eq_flatMap_toList, once, met, flatMap_listening]
  · simp

/-! ## Orderly runs -/

/-- What a caller may do: attach results at any time and go on, and at rest, with no delivery under
way, also subscribe callbacks, and open pipelines, run them and close them. -/
def Admits (s : Session ν κ) : Command ν κ → Prop
  | .attach _ _ => True
  | .finish => s.pending ≠ []
  | .subscribe _ _ | .openPipeline _ => s.pending = []
  | .run number | .close number => s.pending = [] ∧ number < s.pipelines.length
  | .unsubscribe _ | .update _ _ | .fail _ => False

/-- Every command of the run is one that the caller may give. -/
def Orderly (s : Session ν κ) : List (Command ν κ) → Prop
  | [] => True
  | command :: commands => s.Admits command ∧ (s.act command).1.Orderly commands

instance (s : Session ν κ) : (command : Command ν κ) → Decidable (s.Admits command)
  | .attach _ _ => inferInstanceAs (Decidable True)
  | .finish => inferInstanceAs (Decidable (s.pending ≠ []))
  | .subscribe _ _ | .openPipeline _ => inferInstanceAs (Decidable (s.pending = []))
  | .run number | .close number =>
    inferInstanceAs (Decidable (s.pending = [] ∧ number < s.pipelines.length))
  | .unsubscribe _ | .update _ _ | .fail _ => inferInstanceAs (Decidable False)

instance decidableOrderly : (s : Session ν κ) → (commands : List (Command ν κ)) →
    Decidable (s.Orderly commands)
  | _, [] => inferInstanceAs (Decidable True)
  | s, command :: commands =>
    have := decidableOrderly (s.act command).1 commands
    inferInstanceAs (Decidable (s.Admits command ∧ (s.act command).1.Orderly commands))

/-- The evaluations that a command makes due for a result. -/
def due (s : Session ν κ) (result : Node ν) : Command ν κ → List (Call ν κ)
  | .attach child parent =>
    if s.Accepts child parent ∧ child = result then
      evaluationsBy s.roster s.hierarchy.root result
    else []
  | .run number => if s.hierarchy.root = result then s.evaluations number result else []
  | .subscribe _ _ | .unsubscribe _ | .openPipeline _ | .update _ _ | .close _ | .finish
  | .fail _ => []

/-- The evaluations that commands make due for a result, in order. -/
def dueIn (s : Session ν κ) (result : Node ν) : List (Command ν κ) → List (Call ν κ)
  | [] => []
  | command :: commands => s.due result command ++ (s.act command).1.dueIn result commands

theorem owed_act_of_admits {command : Command ν κ} (tree : s.hierarchy.IsTree)
    (admits : s.Admits command) :
    (s.act command).2.call?.toList ++ (s.act command).1.owed = s.begun command ++ s.owed := by
  by_cases keeps : command.keepsSubscriptions = true
  · apply owed_act tree keeps
    rintro e rfl
    exact admits
  · have at_rest : s.pending = [] := by
      cases command <;> simp_all [Admits, Command.keepsSubscriptions]
    obtain ⟨no_call, at_rest'⟩ := act_of_at_rest at_rest (Bool.eq_false_iff.2 keeps)
    rw [no_call, owed_of_pending_eq_nil at_rest, owed_of_pending_eq_nil at_rest']
    cases command with
    | subscribe callback node => rfl
    | unsubscribe handle => rfl
    | openPipeline evaluators => rfl
    | close number => rfl
    | _ => exact absurd rfl keeps

/-- What is begun evaluates a result as often as this is due. -/
theorem Enlists.filter_begun (enlists : s.Enlists) {command : Command ν κ}
    (admits : s.Admits command) :
    (s.begun command).filter (·.evaluates result) = s.due result command := by
  cases command with
  | attach child parent =>
      rw [begun, due]
      by_cases accepted : s.Accepts child parent
      · have mem := enlists.sound.tree.orRoot_mem accepted.1
        rw [if_pos accepted, enlists.filter_announcements mem]
        simp only [accepted, true_and]
      · simp [accepted]
  | run number => exact filter_evaluations s number s.hierarchy.root result
  | update number result => exact admits.elim
  | _ => rfl

/-! ### One command -/

/-- Only results of the hierarchy are still to be evaluated. -/
def OwesInside (s : Session ν κ) : Prop :=
  ∀ result, result ∉ s.hierarchy.nodes → s.owed.filter (·.evaluates result) = []

theorem owesInside_of_at_rest (at_rest : s.pending = []) : s.OwesInside := by
  intro result _
  rw [owed_of_pending_eq_nil at_rest]
  rfl

variable {command : Command ν κ} {commands : List (Command ν κ)}

/-- Nothing is due for a node that is absent after the command. -/
theorem due_eq_nil_of_absent (sound : s.Sound)
    (absent : result ∉ (s.act command).1.hierarchy.nodes) : s.due result command = [] := by
  cases command with
  | attach child parent =>
      apply if_neg
      rintro ⟨⟨present, new⟩, rfl⟩
      exact absent (sound.attached present new []).1
  | run number =>
      apply if_neg
      rintro rfl
      have grows := (s.change_act (.run number)).grows sound.tree
      exact absent (grows.nodes.subset sound.tree.root_mem)
  | _ => rfl

/-- When evaluations become due for a result, no others are owed for it. -/
theorem due_append_owed (inside : s.OwesInside) (admits : s.Admits command) :
    s.due result command ++ s.owed.filter (·.evaluates result) =
      s.owed.filter (·.evaluates result) ++ s.due result command := by
  cases command with
  | attach child parent =>
      rw [due]
      split
      · next new =>
          obtain ⟨⟨-, absent⟩, rfl⟩ := new
          rw [inside child (Hierarchy.not_mem_of_contains_eq_false absent).2, List.append_nil]
          rfl
      · exact (List.append_nil _).symm
  | run number =>
      rw [owed_of_pending_eq_nil admits.1]
      exact List.append_nil _
  | update number result => exact admits.elim
  | unsubscribe handle => exact admits.elim
  | fail e => exact admits.elim
  | subscribe callback node => exact (List.append_nil _).symm
  | openPipeline evaluators => exact (List.append_nil _).symm
  | close number => exact (List.append_nil _).symm
  | finish => exact (List.append_nil _).symm

section Step

variable (enlists : s.Enlists) (admits : s.Admits command)

include enlists admits

theorem filter_owed_act (result : Node ν) :
    (s.act command).2.call?.toList.filter (·.evaluates result) ++
        (s.act command).1.owed.filter (·.evaluates result) =
      s.due result command ++ s.owed.filter (·.evaluates result) := by
  rw [← enlists.filter_begun admits, ← List.filter_append, ← List.filter_append,
    owed_act_of_admits enlists.sound.tree admits]

theorem OwesInside.act (inside : s.OwesInside) : (s.act command).1.OwesInside := by
  intro result absent
  have grows := (s.change_act command).grows enlists.sound.tree
  have law := filter_owed_act enlists admits result
  rw [due_eq_nil_of_absent enlists.sound absent,
    inside result fun mem => absent (grows.nodes.subset mem)] at law
  exact (List.append_eq_nil_iff.1 law).2

end Step

/-! ### A run of commands -/

/-- The evaluations of one result are made in the order in which they become due, and what is not
made is still owed. -/
theorem filter_callsIn (enlists : s.Enlists) (inside : s.OwesInside) (orderly : s.Orderly commands)
    (result : Node ν) :
    (callsIn (s.trace commands)).filter (·.evaluates result) ++
        (s.play commands).owed.filter (·.evaluates result) =
      s.owed.filter (·.evaluates result) ++ s.dueIn result commands := by
  induction commands generalizing s with
  | nil => exact (List.append_nil _).symm
  | cons command commands ih =>
      obtain ⟨admits, orderly⟩ := orderly
      have later := ih (enlists.act command) (OwesInside.act enlists admits inside) orderly
      have now := filter_owed_act enlists admits result
      rw [trace, callsIn_cons, List.filter_append, List.append_assoc, play, later, dueIn,
        ← List.append_assoc, now, due_append_owed inside admits, List.append_assoc]

theorem dueIn_append (s : Session ν κ) (result : Node ν) (commands later : List (Command ν κ)) :
    s.dueIn result (commands ++ later) =
      s.dueIn result commands ++ (s.play commands).dueIn result later := by
  induction commands generalizing s with
  | nil => rfl
  | cons command commands ih =>
      simp only [List.cons_append, dueIn, play, ih, List.append_assoc]

/-- Nothing is due for a result that is neither the root nor attached. -/
theorem dueIn_eq_nil (not_root : s.hierarchy.root ≠ result)
    (never : ∀ earlier parent later, commands = earlier ++ .attach result parent :: later →
      ¬(s.play earlier).Accepts result parent) :
    s.dueIn result commands = [] := by
  induction commands generalizing s with
  | nil => rfl
  | cons command commands ih =>
      have now : s.due result command = [] := by
        cases command with
        | attach child parent =>
            apply if_neg
            rintro ⟨accepted, rfl⟩
            exact never [] parent commands rfl accepted
        | run number => exact if_neg not_root
        | _ => rfl
      have same_root : (s.act command).1.hierarchy.root = s.hierarchy.root :=
        (s.edit_act command).extends.root
      rw [dueIn, now, List.nil_append]
      apply ih
      · rwa [same_root]
      · intro earlier parent later same
        exact never (command :: earlier) parent later (congrArg _ same)

/-- The evaluations that are due for a result which is attached are those of the pipelines that
listen then. -/
theorem dueIn_attached (sound : s.Sound) {earlier later : List (Command ν κ)}
    (accepted : (s.play earlier).Accepts result parent) :
    s.dueIn result (earlier ++ .attach result parent :: later) =
      evaluationsBy (s.play earlier).roster s.hierarchy.root result := by
  have sound' := sound.play earlier
  have grows := sound.grows_play earlier
  have absent := (Hierarchy.not_mem_of_contains_eq_false accepted.2).2
  have not_root : s.hierarchy.root ≠ result := by
    rintro rfl
    exact absent (grows.nodes.subset sound.tree.root_mem)
  have before : s.dueIn result earlier = [] := by
    apply dueIn_eq_nil not_root
    rintro first parent' rest rfl accepted'
    have attached := (sound.play first).attached accepted'.1 accepted'.2 rest
    rw [play_append] at absent
    exact absent attached.1
  have after : ((s.play earlier).act (.attach result parent)).1.dueIn result later = [] := by
    apply dueIn_eq_nil
    · rwa [((s.play earlier).edit_act _).extends.root, grows.root]
    · intro first parent' rest _ accepted'
      have attached := sound'.attached accepted.1 accepted.2 first
      exact (Hierarchy.not_mem_of_contains_eq_false accepted'.2).2 attached.1
  rw [dueIn_append, before, dueIn, after, due, if_pos ⟨accepted, rfl⟩, grows.root]
  exact List.append_nil _

theorem evaluatorsOf_play (known : number < s.pipelines.length) (commands : List (Command ν κ)) :
    (s.play commands).evaluatorsOf number = s.evaluatorsOf number := by
  induction commands generalizing s with
  | nil => rfl
  | cons command commands ih =>
      have extension := (s.edit_act command).extends
      rw [play, ih (Nat.lt_of_lt_of_le known extension.length_le), extension.evaluatorsOf_eq known]

end Session

/-- The evaluations of the root for which a command asks. -/
def Command.runs (evaluatorsOf : ℕ → List κ) (root : Node ν) : Command ν κ → List (Call ν κ)
  | .run number => (evaluatorsOf number).map fun evaluator => .evaluate evaluator root root
  | .attach _ _ | .subscribe _ _ | .unsubscribe _ | .openPipeline _ | .update _ _ | .close _
  | .finish | .fail _ => []

namespace Session

variable [DecidableEq κ] {s : Session ν κ} {commands : List (Command ν κ)}

/-- Evaluations of the root are due when a pipeline is run. -/
theorem dueIn_root (sound : s.Sound) (orderly : s.Orderly commands) :
    s.dueIn s.hierarchy.root commands =
      commands.flatMap (Command.runs (s.play commands).evaluatorsOf s.hierarchy.root) := by
  induction commands generalizing s with
  | nil => rfl
  | cons command commands ih =>
      obtain ⟨admits, orderly⟩ := orderly
      have same_root : (s.act command).1.hierarchy.root = s.hierarchy.root :=
        (s.edit_act command).extends.root
      have later := ih (sound.act command) orderly
      rw [same_root] at later
      have now : s.due s.hierarchy.root command =
          command.runs (s.play (command :: commands)).evaluatorsOf s.hierarchy.root := by
        cases command with
        | attach child parent =>
            apply if_neg
            rintro ⟨accepted, rfl⟩
            exact (Hierarchy.not_mem_of_contains_eq_false accepted.2).2 sound.tree.root_mem
        | run number =>
            rw [due, if_pos rfl, evaluations_eq, Command.runs, evaluatorsOf_play admits.2]
        | _ => rfl
      rw [dueIn, now, later, List.flatMap_cons]
      rfl

theorem Orderly.not_mem_unsubscribe (orderly : s.Orderly commands) (handle : Value) :
    .unsubscribe handle ∉ commands := by
  induction commands generalizing s with
  | nil => exact List.not_mem_nil
  | cons command commands ih =>
      obtain ⟨admits, orderly⟩ := orderly
      intro mem
      rcases List.mem_cons.1 mem with rfl | mem
      · exact admits
      · exact ih orderly mem

/-- Evaluation pipelines see every result exactly once. Take any hierarchy with any listeners, in a
state of rest, and any run that comes to rest again, in which pipelines are opened, run and closed,
also more than once, callbacks are subscribed, and results are attached anywhere in the tree, the
latter also by evaluators and other listeners while they are called.

The calls that evaluate a result which is attached during the run are those of the evaluators of
the pipelines that are open when it is attached: one pipeline after the other in the order in which
they were opened, each with its evaluators in the order of its list, each of them once, and each
with the root for a base. The calls that evaluate the root are those of the pipelines that are run,
once for every time. No other node is evaluated. The evaluators of a pipeline are those with which
it was opened. A pipeline that is open can be closed, and closing it again has no effect. -/
theorem evaluated_once (root : Node ν) (before commands : List (Command ν κ)) :
    let s := (ofRoot root : Session ν κ).play before
    let calls := callsIn (s.trace commands)
    s.pending = [] → s.Orderly commands → (s.play commands).pending = [] →
    (∀ earlier result parent later, commands = earlier ++ .attach result parent :: later →
      (s.play earlier).Accepts result parent →
      ∃ roster : List (ℕ × List κ), (roster.map (·.1)).Pairwise (· < ·) ∧
        (∀ number evaluators, (number, evaluators) ∈ roster ↔
          s.IsOpen earlier number evaluators) ∧
        calls.filter (·.evaluates result) = evaluationsBy roster root result) ∧
    calls.filter (·.evaluates root) =
      commands.flatMap (Command.runs (s.play commands).evaluatorsOf root) ∧
    (∀ result, result ≠ root →
      (∀ earlier parent later, commands = earlier ++ .attach result parent :: later →
        ¬(s.play earlier).Accepts result parent) →
      calls.filter (·.evaluates result) = []) ∧
    (∀ earlier evaluators later, commands = earlier ++ .openPipeline evaluators :: later →
      (s.play commands).evaluatorsOf (s.play earlier).pipelines.length = evaluators) ∧
    ∀ earlier number later evaluators, commands = earlier ++ .close number :: later →
      s.IsOpen earlier number evaluators →
      ((s.play earlier).act (.close number)).2 = .returned ∧
        ∀ meanwhile,
          let t := s.play (earlier ++ .close number :: meanwhile)
          t.act (.close number) = (t, .returned) := by
  intro s calls at_rest orderly at_rest'
  have enlists : s.Enlists := (enlists_ofRoot root).play before
  have is_root : s.hierarchy.root = root := ((sound_ofRoot root).grows_play before).root
  have evaluated (result : Node ν) :
      calls.filter (·.evaluates result) = s.dueIn result commands := by
    have law := filter_callsIn enlists (owesInside_of_at_rest at_rest) orderly result
    rw [owed_of_pending_eq_nil at_rest, owed_of_pending_eq_nil at_rest'] at law
    simpa using law
  have respects (earlier later : List (Command ν κ)) (same : commands = earlier ++ later)
      (handle : Value) : .unsubscribe handle ∉ earlier := fun mem =>
    orderly.not_mem_unsubscribe handle (same ▸ List.mem_append_left later mem)
  refine ⟨?_, ?_, ?_, ?_, ?_⟩
  · intro earlier result parent later same accepted
    refine ⟨(s.play earlier).roster, ?_, fun number evaluators => ?_, ?_⟩
    · have ordered := (enlists.play earlier).ordered
      simpa [roster, Function.comp_def] using ordered
    · exact enlists.mem_roster_play (respects earlier _ same)
    · rw [evaluated, same, dueIn_attached enlists.sound accepted, is_root]
  · rw [evaluated, ← is_root]
    exact dueIn_root enlists.sound orderly
  · intro result not_root never
    rw [evaluated]
    exact dueIn_eq_nil (is_root ▸ not_root.symm) never
  · rintro earlier evaluators later rfl
    have sound := enlists.sound.play earlier
    have opened := evaluatorsOf_openPipeline sound.tree evaluators
    rw [play_append, play, evaluatorsOf_play ?_ later, opened]
    obtain ⟨h', -, opens⟩ := act_openPipeline sound.tree evaluators
    simp [opens]
  · intro earlier number later evaluators same is_open
    have enlists' := enlists.play earlier
    have listens : number ∈ (s.play earlier).listening :=
      (mem_roster.1 ((enlists.mem_roster_play (respects earlier _ same)).2 is_open)).1
    constructor
    · obtain ⟨evaluators', handle, h', held, cancelled⟩ := enlists'.exists_of_mem_listening listens
      rw [act_close_of_cancel? held cancelled]
    · intro meanwhile
      rw [play_append, play]
      exact enlists'.act_close_again listens meanwhile

/-- The first evaluator of a pipeline attaches a result below the one that it is called with, so
that all pipelines see the second result before the first one has been evaluated by all.
Afterwards one pipeline is closed twice. -/
theorem evaluated_once_nested :
    let s := (ofRoot (.object 0) : Session ℕ String).play []
    let earlier := [.openPipeline ["mean", "spread"], .openPipeline ["trend"],
      .attach (.object 1) .null]
    let later := [.finish, .finish, .finish, .finish, .finish, .finish, .run 0, .finish, .finish,
      .close 0, .close 0, .attach (.object 3) .null, .finish]
    let commands := earlier ++ .attach (.object 2) (.object 1) :: later
    s.pending = [] ∧ s.Orderly commands ∧ (s.play commands).pending = [] ∧
      (s.play earlier).Accepts (.object 2) (.object 1) ∧
      (∃ roster : List (ℕ × List String), (roster.map (·.1)).Pairwise (· < ·) ∧
        (∀ number evaluators, (number, evaluators) ∈ roster ↔
          s.IsOpen earlier number evaluators) ∧
        (callsIn (s.trace commands)).filter (·.evaluates (.object 2)) =
          evaluationsBy roster (.object 0) (.object 2)) ∧
      (callsIn (s.trace commands)).filter (·.evaluates (.object 2)) =
        [.evaluate "mean" (.object 0) (.object 2), .evaluate "spread" (.object 0) (.object 2),
          .evaluate "trend" (.object 0) (.object 2)] ∧
      (callsIn (s.trace commands)).filter (·.evaluates (.object 3)) =
        [.evaluate "trend" (.object 0) (.object 3)] := by
  intro s earlier later commands
  have at_rest : s.pending = [] := rfl
  have orderly : s.Orderly commands := by decide +kernel
  have at_rest' : (s.play commands).pending = [] := by decide +kernel
  have accepted : (s.play earlier).Accepts (.object 2) (.object 1) := by decide +kernel
  have once := evaluated_once (.object 0) [] commands at_rest orderly at_rest'
  exact ⟨at_rest, orderly, at_rest', accepted,
    once.1 earlier (.object 2) (.object 1) later rfl accepted, by decide +kernel,
    by decide +kernel⟩

end Session

end PointPattern
