/-
# Runs of commands

Listeners may give any commands while a delivery is under way, and they may fail. So a
run of a session is any list of commands, and a state that can be reached is one that
some list leads to from a root alone; each state in which a listener is called is one of
them. In all these states the nodes form a tree, and the deliveries under way climb on
it; nothing that was attached is ever removed or put elsewhere.
-/

import PointPattern.Proofs.Hierarchy.Moves
import PointPattern.Proofs.Hierarchy.Next

namespace PointPattern

variable {ν κ : Type} [DecidableEq ν]

theorem Delivery.OnTrack.grows {d : Delivery ν κ} {h h' : Hierarchy ν (Listener κ)}
    (on_track : d.OnTrack h) (tree : h.IsTree) (grows : h.Grows h') : d.OnTrack h' where
  parent_mem := grows.nodes.subset on_track.parent_mem
  path_suffix := by
    rw [grows.ancestorsOf_eq tree on_track.parent_mem]
    exact on_track.path_suffix

namespace Session

/-- The nodes form a tree, and every delivery under way climbs on it. -/
structure Sound (s : Session ν κ) : Prop where
  tree : s.hierarchy.IsTree
  on_track : ∀ d ∈ s.pending, d.OnTrack s.hierarchy

theorem sound_ofRoot (root : Node ν) : (ofRoot root : Session ν κ).Sound :=
  ⟨Hierarchy.isTree_ofRoot root, fun _ impossible => by cases impossible⟩

variable [DecidableEq κ] {s : Session ν κ}

/-- The session after some commands. -/
def play (s : Session ν κ) : List (Command ν κ) → Session ν κ
  | [] => s
  | command :: commands => (s.act command).1.play commands

theorem play_append (s : Session ν κ) (commands later : List (Command ν κ)) :
    s.play (commands ++ later) = (s.play commands).play later := by
  induction commands generalizing s with
  | nil => rfl
  | cons command commands ih => exact ih (s.act command).1

/-- Going on with a delivery only takes it further up. -/
theorem onTrack_proceed (on_track : ∀ d ∈ s.pending, d.OnTrack s.hierarchy) :
    ∀ d ∈ s.proceed.1.pending, d.OnTrack s.hierarchy := by
  cases newest : s.pending with
  | nil =>
      rw [proceed, newest]
      simp [newest]
  | cons d rest =>
      rw [newest] at on_track
      cases next : d.next (s.callsOf d.child d.parent) s.hierarchy.listenersAt with
      | none =>
          rw [proceed_of_next_eq_none newest next]
          exact fun d' mem => on_track d' (List.mem_cons_of_mem d mem)
      | some found =>
          obtain ⟨call, d₁⟩ := found
          rw [proceed_of_next_eq_some newest next]
          intro d' mem
          rcases List.mem_cons.1 mem with rfl | mem
          · have advances := Delivery.advances_of_next_eq_some next
            have old := on_track d List.mem_cons_self
            constructor
            · rw [advances.parent_eq]
              exact old.parent_mem
            · rw [advances.parent_eq]
              exact advances.path_suffix.trans old.path_suffix
          · exact on_track d' (List.mem_cons_of_mem d mem)

theorem onTrack_deliver {d : Delivery ν κ} (on_track : ∀ d ∈ s.pending, d.OnTrack s.hierarchy)
    (begins : d.OnTrack s.hierarchy) :
    ∀ d' ∈ (s.deliver d).1.pending, d'.OnTrack s.hierarchy := by
  apply onTrack_proceed (s := { s with pending := d :: s.pending })
  intro d' mem
  rcases List.mem_cons.1 mem with rfl | mem
  · exact begins
  · exact on_track d' mem

/-- No command breaks the tree or takes a delivery off it. -/
theorem Sound.act (sound : s.Sound) (command : Command ν κ) : (s.act command).1.Sound := by
  have change := s.change_act command
  have tree := change.isTree sound.tree
  have grown := change.grows sound.tree
  have old : ∀ d ∈ s.pending, d.OnTrack (s.act command).1.hierarchy :=
    fun d mem => (sound.on_track d mem).grows sound.tree grown
  refine ⟨tree, ?_⟩
  have move := s.move_act command
  clear change
  generalize s.act command = result at *
  cases move with
  | still pending no_call =>
      rw [pending]
      exact old
  | @attached child parent present absent =>
      rw [deliver, hierarchy_proceed] at old grown tree ⊢
      refine onTrack_deliver old ⟨?_, List.suffix_rfl⟩
      exact grown.nodes.subset (sound.tree.orRoot_mem present)
  | updated pipeline result =>
      rw [update, deliver, hierarchy_proceed] at old ⊢
      exact onTrack_deliver old ⟨sound.tree.root_mem, List.nil_suffix⟩
  | finished =>
      rw [hierarchy_proceed] at old ⊢
      exact onTrack_proceed old
  | failed e => exact fun d mem => old d (List.mem_of_mem_drop mem)

theorem Sound.play (sound : s.Sound) (commands : List (Command ν κ)) :
    (s.play commands).Sound := by
  induction commands generalizing s with
  | nil => exact sound
  | cons command commands ih => exact ih (sound.act command)

/-- No run of commands removes a node or puts it elsewhere. -/
theorem Sound.grows_play (sound : s.Sound) (commands : List (Command ν κ)) :
    s.hierarchy.Grows (s.play commands).hierarchy := by
  induction commands generalizing s with
  | nil => exact .refl _
  | cons command commands ih =>
      have first : s.hierarchy.Grows (s.act command).1.hierarchy :=
        (s.change_act command).grows sound.tree
      exact first.trans (ih (sound.act command))

/-- After an attachment the new node stands below its parent, whatever happens later. -/
theorem Sound.attached (sound : s.Sound) {child parent : Node ν}
    (present : s.hierarchy.contains (s.hierarchy.orRoot parent) = true)
    (absent : s.hierarchy.contains child = false) (later : List (Command ν κ)) :
    let t := (s.act (.attach child parent)).1.play later
    child ∈ t.hierarchy.nodes ∧
      t.hierarchy.parentOf child = some (s.hierarchy.orRoot parent) ∧
      child ∈ t.hierarchy.childrenOf (s.hierarchy.orRoot parent) := by
  have grafted : (s.act (.attach child parent)).1.hierarchy =
      s.hierarchy.graft child (s.hierarchy.orRoot parent) := by
    rw [Session.act, attach, Hierarchy.attach_of_contains present absent]
    exact hierarchy_proceed _
  have grows := (sound.act (.attach child parent)).grows_play later
  rw [grafted] at grows
  have child_mem : child ∈ (s.hierarchy.graft child (s.hierarchy.orRoot parent)).nodes :=
    List.mem_append_right _ (List.mem_singleton.2 rfl)
  refine ⟨grows.nodes.subset child_mem, ?_, (grows.childrenOf _).subset ?_⟩
  · rw [grows.parentOf child child_mem, Hierarchy.parentOf_graft, if_pos rfl]
  · rw [Hierarchy.childrenOf_graft, if_pos rfl]
    exact List.mem_append_right _ (List.mem_singleton.2 rfl)

/-- In every state that commands lead to from a root, the nodes form a tree, and the
deliveries under way climb on it; no later command removes a node or puts it elsewhere. An
attachment that is refused changes nothing at all. After one that is accepted the new node
stands below its parent for good, also if one of the calls that follow it fails. -/
theorem play_ofRoot_sound (root : Node ν) (commands : List (Command ν κ)) :
    let s := (ofRoot root : Session ν κ).play commands
    s.hierarchy.root = root ∧ s.hierarchy.IsTree ∧
      (∀ d ∈ s.pending, d.OnTrack s.hierarchy) ∧
      (∀ later, (s.play later).hierarchy.IsTree ∧ s.hierarchy.Grows (s.play later).hierarchy) ∧
      ∀ child parent,
        if s.hierarchy.contains (s.hierarchy.orRoot parent) = true ∧
            s.hierarchy.contains child = false then
          ∀ later,
            let t := (s.act (.attach child parent)).1.play later
            t.hierarchy.IsTree ∧ child ∈ t.hierarchy.nodes ∧
              t.hierarchy.parentOf child = some (s.hierarchy.orRoot parent) ∧
              child ∈ t.hierarchy.childrenOf (s.hierarchy.orRoot parent)
        else ∃ cause, s.act (.attach child parent) = (s, .raised (.invalid cause)) := by
  intro s
  have sound : s.Sound := (sound_ofRoot root).play commands
  refine ⟨((sound_ofRoot root).grows_play commands).root, sound.tree, sound.on_track,
    fun later => ⟨(sound.play later).tree, sound.grows_play later⟩, fun child parent => ?_⟩
  split
  · next accepted =>
      intro later
      exact ⟨((sound.act _).play later).tree, sound.attached accepted.1 accepted.2 later⟩
  · next refused =>
      cases attached : s.hierarchy.attach child parent with
      | ok result =>
          obtain ⟨p, h'⟩ := result
          obtain ⟨rfl, present, absent, -⟩ := Hierarchy.attach_eq_ok attached
          exact absurd ⟨present, absent⟩ refused
      | error e =>
          have unchanged : s.act (.attach child parent) = (s, .raised e) := by
            rw [act, attach, attached]
          rcases Hierarchy.attach_eq_error attached with rfl | rfl
          · exact ⟨_, unchanged⟩
          · exact ⟨_, unchanged⟩

/-- A listener attaches while it is notified, and the inner notification fails. -/
theorem play_ofRoot_sound_nested :
    let s := (ofRoot (.object 0) : Session ℕ String).play
      [.subscribe "watch" .null, .attach (.object 1) .null, .attach (.object 2) (.object 1),
        .fail (.raised "RuntimeError" "boom")]
    s.hierarchy.nodes = [.object 0, .object 1, .object 2] ∧ s.pending.length = 1 ∧
      s.hierarchy.IsTree :=
  ⟨rfl, rfl, (play_ofRoot_sound (.object 0) [.subscribe "watch" .null, .attach (.object 1) .null,
    .attach (.object 2) (.object 1), .fail (.raised "RuntimeError" "boom")]).2.1⟩

end Session

end PointPattern
