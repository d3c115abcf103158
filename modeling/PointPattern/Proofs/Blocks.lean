/-
# Programs of blocks

A block makes sure that records pass, and it has its collector attached. At its end it puts the
level back, but it detaches the collector, whether or not it was the block that attached it. So
records pass everywhere inside a block, the level is restored, and a collector keeps nothing but
what is published inside its blocks, whatever fails on the way. The rest of what blocks are for
depends on how they are nested: a block inside another one of the same collector ends the
attachment for both.
-/

import PointPattern.Channel
import PointPattern.Proofs.Emission
import Mathlib.Data.List.Nodup

namespace PointPattern.Channel

/-- A program that works on a channel. -/
inductive Program where
  | done
  | emit (name : String) (value : Value)
  | log (level : Int) (text : String)
  | fail (cause : Error)
  | andThen (first rest : Program)
  /-- A part during which a collector is attached. -/
  | block (collector : ℕ) (body : Program)
  /-- A part whose failure is handled. -/
  | rescue (body handler : Program)

/-- A part that a run of a program goes through: the collectors of the blocks around it, the
innermost first, and the channel as the part finds it. -/
structure Moment where
  enclosing : List ℕ
  part : Program
  before : Channel Float

namespace Program

/-- How a program ends, and the channel that it leaves behind. A block that fails ends as it does
otherwise, and passes the failure on. -/
def run : Program → Channel Float → Option Error × Channel Float
  | done, c => (none, c)
  | emit name value, c =>
    match Datum.ofValue value with
    | .ok datum => (none, c.emit name datum)
    | .error cause => (some cause, c)
  | log level text, c => (none, c.log level text)
  | fail cause, c => (some cause, c)
  | andThen first rest, c =>
    match first.run c with
    | (none, c) => rest.run c
    | (some cause, c) => (some cause, c)
  | block collector body, c =>
    let (opened, entered) := c.openBlock collector
    let (failure, left) := body.run entered
    (failure, left.closeBlock opened)
  | rescue body handler, c =>
    match body.run c with
    | (none, c) => (none, c)
    | (some _, c) => handler.run c

/-- The parts that a run of a program goes through, the outer before the inner and in order. -/
def moments : Program → List ℕ → Channel Float → List Moment
  | andThen first rest, enclosing, c =>
    ⟨enclosing, andThen first rest, c⟩ ::
      (first.moments enclosing c ++
        match first.run c with
        | (none, c) => rest.moments enclosing c
        | (some _, _) => [])
  | block collector body, enclosing, c =>
    ⟨enclosing, block collector body, c⟩ ::
      body.moments (collector :: enclosing) (c.openBlock collector).2
  | rescue body handler, enclosing, c =>
    ⟨enclosing, rescue body handler, c⟩ ::
      (body.moments enclosing c ++
        match body.run c with
        | (none, _) => []
        | (some _, c) => handler.moments enclosing c)
  | part, enclosing, c => [⟨enclosing, part, c⟩]

/-- The record that a program publishes by itself. -/
def record? : Program → Option (String × Datum Float)
  | emit name value => (Datum.ofValue value).toOption.map (name, ·)
  | _ => none

end Program

/-- The channel as the part leaves it. -/
def Moment.after (m : Moment) : Channel Float := (m.part.run m.before).2

/-- Whether a collector keeps what is published in a moment. -/
def Moment.keptBy (m : Moment) (n : ℕ) : Bool := m.before.isEnabled && n ∈ m.before.attached

/-- The records that are published in moments of a kind, in order. -/
def recordsIn (kind : Moment → Bool) (moments : List Moment) : List (String × Datum Float) :=
  (moments.filter kind).filterMap (·.part.record?)

/-- What blocks are for, in the run of a program on a channel. Inside every block records pass. A
block ends, however it does, with the level and the attached collectors with which it began. And
each collector that was not attached before keeps the records that are published inside its blocks,
each of them once and in order, and no others. -/
structure BlocksHold (c : Channel Float) (p : Program) : Prop where
  enabled : ∀ m ∈ p.moments [] c, m.enclosing ≠ [] →
    m.before.isEnabled = true ∧ m.after.isEnabled = true
  restored : ∀ m ∈ p.moments [] c, ∀ n body, m.part = .block n body →
    m.after.level = m.before.level ∧ ∀ k, k ∈ m.after.attached ↔ k ∈ m.before.attached
  records : ∀ n < c.collectors.length, n ∉ c.attached →
    (p.run c).2.records n = c.records n ++ recordsIn (n ∈ ·.enclosing) (p.moments [] c)

/-- A channel on which no collector is attached twice, with collectors of the default level. -/
structure IsStandard (c : Channel Float) : Prop where
  nodup : c.attached.Nodup
  levels : ∀ collector ∈ c.collectors, collector.level = statisticsLevel

variable {c c' base : Channel Float} {n : ℕ} {enclosing : List ℕ} {p : Program}

/-! ## Throughout a run -/

theorem mem_moments_self (p : Program) (enclosing : List ℕ) (c : Channel Float) :
    ⟨enclosing, p, c⟩ ∈ p.moments enclosing c := by
  cases p <;> exact List.mem_cons_self

/-- What is said of a channel and the blocks that it is in, if neither records nor messages nor the
beginning of a block make it wrong. -/
structure IsKept (holds : List ℕ → Channel Float → Prop) : Prop where
  emit : ∀ {enclosing c} name datum, holds enclosing c → holds enclosing (c.emit name datum)
  log : ∀ {enclosing c} level text, holds enclosing c → holds enclosing (c.log level text)
  enter : ∀ {enclosing c} n, holds enclosing c → holds (n :: enclosing) (c.openBlock n).2

/-- Whether it holds before and after a part. -/
def Moment.Holds (holds : List ℕ → Channel Float → Prop) (m : Moment) : Prop :=
  holds m.enclosing m.before ∧ holds m.enclosing m.after

/-- Whether the end of a block, if the part is one, does not make it wrong. -/
def Moment.Leaves (holds : List ℕ → Channel Float → Prop) (m : Moment) : Prop :=
  ∀ n body, m.part = .block n body → holds m.enclosing m.before →
    ∀ c', holds (n :: m.enclosing) c' → holds m.enclosing (c'.closeBlock (m.before.openBlock n).1)

/-- It holds throughout a run, if the ends of the blocks do not make it wrong either. -/
theorem IsKept.moments {holds : List ℕ → Channel Float → Prop} (kept : IsKept holds) (p : Program)
    (start : holds enclosing c) (leave : ∀ m ∈ p.moments enclosing c, m.Leaves holds) :
    ∀ m ∈ p.moments enclosing c, m.Holds holds := by
  have single {enclosing : List ℕ} {c : Channel Float} {part : Program} (start : holds enclosing c)
      (after : holds enclosing (part.run c).2) :
      ∀ m ∈ [Moment.mk enclosing part c], m.Holds holds :=
    List.forall_mem_singleton.2 ⟨start, after⟩
  induction p generalizing enclosing c with
  | done | fail => exact single start start
  | emit name value =>
      refine single start ?_
      rw [Program.run]
      split
      · exact kept.emit name _ start
      · exact start
  | log level text => exact single start (kept.log level text start)
  | andThen first rest ih_first ih_rest =>
      simp only [Program.moments, List.forall_mem_cons, List.forall_mem_append] at leave ⊢
      have throughout := ih_first start leave.2.1
      have between : holds enclosing (first.run c).2 :=
        (throughout _ (mem_moments_self first enclosing c)).2
      rcases ran : first.run c with ⟨_ | cause, c₁⟩ <;> simp only [ran] at leave between ⊢
      · have later := ih_rest between leave.2.2
        refine ⟨⟨start, ?_⟩, throughout, later⟩
        simp only [Moment.after, Program.run, ran]
        exact (later _ (mem_moments_self rest enclosing c₁)).2
      · refine ⟨⟨start, ?_⟩, throughout, nofun⟩
        simp only [Moment.after, Program.run, ran]
        exact between
  | block n body ih =>
      simp only [Program.moments, List.forall_mem_cons] at leave ⊢
      have inside := ih (kept.enter n start) leave.2
      have left := (inside _ (mem_moments_self body (n :: enclosing) (c.openBlock n).2)).2
      exact ⟨⟨start, leave.1 n body rfl start _ left⟩, inside⟩
  | rescue body handler ih_body ih_handler =>
      simp only [Program.moments, List.forall_mem_cons, List.forall_mem_append] at leave ⊢
      have throughout := ih_body start leave.2.1
      have between : holds enclosing (body.run c).2 :=
        (throughout _ (mem_moments_self body enclosing c)).2
      rcases ran : body.run c with ⟨_ | cause, c₁⟩ <;> simp only [ran] at leave between ⊢
      · refine ⟨⟨start, ?_⟩, throughout, nofun⟩
        simp only [Moment.after, Program.run, ran]
        exact between
      · have later := ih_handler between leave.2.2
        refine ⟨⟨start, ?_⟩, throughout, later⟩
        simp only [Moment.after, Program.run, ran]
        exact (later _ (mem_moments_self handler enclosing c₁)).2

/-! ## Levels and collectors -/

@[simp]
theorem collectors_openBlock (c : Channel Float) (n : ℕ) :
    (c.openBlock n).2.collectors = c.collectors := by
  rw [openBlock, attach]
  split_ifs <;> rfl

@[simp]
theorem inherited_openBlock (c : Channel Float) (n : ℕ) :
    (c.openBlock n).2.inherited = c.inherited := by
  rw [openBlock, attach]
  split_ifs <;> rfl

/-- The beginning of a block attaches the collector, last unless it is there. -/
theorem attached_openBlock (c : Channel Float) (n : ℕ) :
    (c.openBlock n).2.attached = if n ∈ c.attached then c.attached else c.attached ++ [n] := by
  rw [openBlock, attach]
  split_ifs <;> rfl

@[simp]
theorem mem_attached_openBlock {k : ℕ} :
    k ∈ (c.openBlock n).2.attached ↔ k ∈ c.attached ∨ k = n := by
  rw [attached_openBlock]
  split
  · next here => exact (or_iff_left_of_imp fun same => same ▸ here).symm
  · rw [List.mem_append, List.mem_singleton]

/-- The beginning of a block makes records pass. -/
theorem isEnabled_openBlock (c : Channel Float) (n : ℕ) :
    (c.openBlock n).2.isEnabled = true := by
  simp only [openBlock]
  split
  · next enabled => exact enabled
  · simp [isEnabled, isEnabledFor, effectiveLevel, statisticsLevel]

@[simp]
theorem mem_attached_closeBlock {k : ℕ} (b : CollectorBlock) :
    k ∈ (c.closeBlock b).attached ↔ k ∈ c.attached ∧ k ≠ b.collector := by
  simp [closeBlock, detach]

theorem levels_emit (c : Channel Float) (name : String) (datum : Datum Float) :
    (c.emit name datum).collectors.map (·.level) = c.collectors.map (·.level) := by
  refine List.ext_getElem? fun n => ?_
  rw [List.getElem?_map, List.getElem?_map, (Receives.emit c (name, datum)).collected,
    Option.map_map]
  rfl

/-- What a run leaves as it is: the inherited level, the levels of the collectors, and that none of
them is attached twice. Records pass in its blocks, and no collector is attached but those that were
and those of the blocks around. -/
structure Intact (base : Channel Float) (enclosing : List ℕ) (c : Channel Float) : Prop where
  inherited : c.inherited = base.inherited
  levels : c.collectors.map (·.level) = base.collectors.map (·.level)
  nodup : c.attached.Nodup
  inside : ∀ n ∈ c.attached, n ∈ base.attached ∨ n ∈ enclosing
  enabled : enclosing ≠ [] → c.isEnabled = true

theorem isKept_intact (base : Channel Float) : IsKept (Intact base) where
  emit {enclosing c} name datum intact := by
    have receives := Receives.emit c (name, datum)
    refine ⟨receives.inherited.trans intact.inherited,
      (levels_emit c name datum).trans intact.levels, ?_, ?_,
      fun some_block => receives.isEnabled_eq.trans (intact.enabled some_block)⟩
    · exact receives.attached ▸ intact.nodup
    · exact receives.attached ▸ intact.inside
  log {enclosing c} level text intact := by
    rw [Channel.log]
    split
    · exact ⟨intact.inherited, intact.levels, intact.nodup, intact.inside, intact.enabled⟩
    · exact intact
  enter {enclosing c} n intact := by
    refine ⟨?_, ?_, ?_, fun k mem => ?_, fun _ => isEnabled_openBlock c n⟩
    · rw [inherited_openBlock, intact.inherited]
    · rw [collectors_openBlock, intact.levels]
    · rw [attached_openBlock]
      split
      · exact intact.nodup
      · next absent =>
          exact List.nodup_append.2 ⟨intact.nodup, List.pairwise_singleton _ n, by grind⟩
    · rcases mem_attached_openBlock.1 mem with old | rfl
      · exact (intact.inside k old).imp_right (List.mem_cons_of_mem n)
      · exact .inr List.mem_cons_self

theorem Intact.leave {before : Channel Float} (intact : Intact base enclosing before)
    (inner : Intact base (n :: enclosing) c) :
    Intact base enclosing (c.closeBlock (before.openBlock n).1) where
  inherited := inner.inherited
  levels := inner.levels
  nodup := inner.nodup.filter _
  inside k mem := by
    obtain ⟨mem, other⟩ := (mem_attached_closeBlock _).1 mem
    exact (inner.inside k mem).imp_right fun here => (List.mem_cons.1 here).resolve_left other
  enabled some_block := by
    have level : (c.closeBlock (before.openBlock n).1).level = before.level := rfl
    have inherited : (c.closeBlock (before.openBlock n).1).inherited = before.inherited :=
      inner.inherited.trans intact.inherited.symm
    rw [isEnabled_congr level inherited]
    exact intact.enabled some_block

theorem IsStandard.intact (standard : c.IsStandard) : Intact c [] c where
  inherited := rfl
  levels := rfl
  nodup := standard.nodup
  inside _ := .inl
  enabled outside := absurd rfl outside

theorem Intact.moments (intact : Intact base enclosing c) (p : Program) :
    ∀ m ∈ p.moments enclosing c,
      Intact base m.enclosing m.before ∧ Intact base m.enclosing m.after :=
  (isKept_intact base).moments p intact fun _ _ _ _ _ before _ inner => before.leave inner

theorem Intact.run (intact : Intact base enclosing c) (p : Program) :
    Intact base enclosing (p.run c).2 :=
  (intact.moments p _ (mem_moments_self p enclosing c)).2

/-! ## Attachments -/

/-- As long as no block is entered by a collector that is attached, the collectors of the blocks
around and those that were attached before are attached. -/
theorem attached_of_apart (p : Program)
    (apart : ∀ m ∈ p.moments [] c, ∀ n body, m.part = .block n body →
      (∀ k, k ∈ c.attached ∨ k ∈ m.enclosing → k ∈ m.before.attached) →
        n ∉ c.attached ∧ n ∉ m.enclosing) :
    ∀ m ∈ p.moments [] c,
      (∀ k, k ∈ c.attached ∨ k ∈ m.enclosing → k ∈ m.before.attached) ∧
        ∀ k, k ∈ c.attached ∨ k ∈ m.enclosing → k ∈ m.after.attached := by
  have kept : IsKept fun enclosing c' =>
      ∀ k, k ∈ c.attached ∨ k ∈ enclosing → k ∈ c'.attached := by
    constructor
    case emit =>
      intro enclosing c' name datum holds
      rwa [(Receives.emit c' (name, datum)).attached]
    case log =>
      intro enclosing c' level text holds
      rw [Channel.log]
      split <;> exact holds
    case enter =>
      intro enclosing c' n holds k here
      rw [mem_attached_openBlock]
      rcases here with old | here
      · exact .inl (holds k (.inl old))
      · rcases List.mem_cons.1 here with rfl | around
        · exact .inr rfl
        · exact .inl (holds k (.inr around))
  refine kept.moments p (fun k here => here.resolve_right List.not_mem_nil) ?_
  intro m mem n body is_block before c' inner k here
  obtain ⟨not_before, not_around⟩ := apart m mem n body is_block before
  refine (mem_attached_closeBlock _).2 ⟨inner k (here.imp_right (List.mem_cons_of_mem n)), ?_⟩
  rintro rfl
  exact here.elim not_before not_around

/-! ## Records -/

theorem records_congr (same : c'.collectors = c.collectors) (n : ℕ) :
    c'.records n = c.records n := by
  rw [records, records, same]

/-- A collector of the default level that is attached once keeps a record that passes. -/
theorem records_emit (intact : Intact base enclosing c) (standard : base.IsStandard)
    (inside : n < base.collectors.length) (name : String) (datum : Datum Float) :
    (c.emit name datum).records n =
      c.records n ++ if c.isEnabled && n ∈ c.attached then [(name, datum)] else [] := by
  have length : c.collectors.length = base.collectors.length := by
    simpa using congrArg List.length intact.levels
  have found : c.collectors[n]? = some c.collectors[n] :=
    List.getElem?_eq_getElem (length ▸ inside)
  have level : c.collectors[n].level ≤ statisticsLevel := by
    have mem : c.collectors[n].level ∈ base.collectors.map (·.level) := by
      rw [← intact.levels]
      exact List.mem_map_of_mem (List.getElem_mem _)
    obtain ⟨collector, collector_mem, same⟩ := List.mem_map.1 mem
    exact Int.le_of_eq (same.symm.trans (standard.levels collector collector_mem))
  rw [records, records, (Receives.emit c (name, datum)).collected, found]
  by_cases attached : n ∈ c.attached
  · have once : c.attached.count n = 1 := List.count_eq_one_of_mem intact.nodup attached
    cases enabled : c.isEnabled <;> simp [Channel.keeps, level, once, attached]
  · have never : c.attached.count n = 0 := List.count_eq_zero_of_not_mem attached
    cases enabled : c.isEnabled <;> simp [never, attached]

theorem recordsIn_append (kind : Moment → Bool) (ms ms' : List Moment) :
    recordsIn kind (ms ++ ms') = recordsIn kind ms ++ recordsIn kind ms' := by
  rw [recordsIn, List.filter_append, List.filterMap_append]
  rfl

theorem recordsIn_singleton (kind : Moment → Bool) (m : Moment) :
    recordsIn kind [m] = if kind m then m.part.record?.toList else [] := by
  rw [recordsIn, List.filter_singleton]
  cases kind m
  · rfl
  · cases silent : m.part.record? <;> simp [silent]

/-- A part that publishes nothing by itself adds nothing. -/
theorem recordsIn_cons_of_silent {kind : Moment → Bool} {m : Moment}
    (silent : m.part.record? = none) (ms : List Moment) :
    recordsIn kind (m :: ms) = recordsIn kind ms := by
  rw [recordsIn, List.filter_cons]
  split
  · rw [List.filterMap_cons, silent]
    rfl
  · rfl

/-- A collector has kept the records that were published in moments in which it was attached and
records passed. -/
theorem records_run (standard : base.IsStandard) (inside : n < base.collectors.length)
    (p : Program) (intact : Intact base enclosing c) :
    (p.run c).2.records n = c.records n ++ recordsIn (·.keptBy n) (p.moments enclosing c) := by
  induction p generalizing enclosing c with
  | done | fail => simp [Program.moments, Program.run, Program.record?, recordsIn_singleton]
  | emit name value =>
      simp only [Program.moments, Program.run, Program.record?, recordsIn_singleton, Moment.keptBy]
      cases Datum.ofValue value with
      | error cause => simp [Except.toOption]
      | ok datum => exact records_emit intact standard inside name datum
  | log level text =>
      have same : (c.log level text).collectors = c.collectors := by
        rw [Channel.log]
        split <;> rfl
      simp [Program.moments, Program.run, Program.record?, recordsIn_singleton,
        records_congr same]
  | andThen first rest ih_first ih_rest =>
      have between := intact.run first
      simp only [Program.moments, Program.run]
      rw [recordsIn_cons_of_silent rfl, recordsIn_append, ← List.append_assoc, ← ih_first intact]
      generalize first.run c = ended at between ⊢
      rcases ended with ⟨_ | cause, c₁⟩
      · exact ih_rest between
      · exact (List.append_nil _).symm
  | block m body ih =>
      have body_kept := ih ((isKept_intact base).enter m intact)
      rw [records_congr (collectors_openBlock c m)] at body_kept
      simp only [Program.moments]
      rw [recordsIn_cons_of_silent rfl, ← body_kept]
      rfl
  | rescue body handler ih_body ih_handler =>
      have between := intact.run body
      simp only [Program.moments, Program.run]
      rw [recordsIn_cons_of_silent rfl, recordsIn_append, ← List.append_assoc, ← ih_body intact]
      generalize body.run c = ended at between ⊢
      rcases ended with ⟨_ | cause, c₁⟩
      · exact (List.append_nil _).symm
      · exact ih_handler between

/-! ## Blocks -/

theorem recordsIn_congr {kind kind' : Moment → Bool} {ms : List Moment}
    (same : ∀ m ∈ ms, kind m = kind' m) : recordsIn kind ms = recordsIn kind' ms := by
  rw [recordsIn, recordsIn, List.filter_congr same]

/-- Fewer moments have fewer records. -/
theorem recordsIn_sublist {kind kind' : Moment → Bool} {ms : List Moment}
    (implies : ∀ m ∈ ms, kind m = true → kind' m = true) :
    (recordsIn kind ms).Sublist (recordsIn kind' ms) := by
  have both : ms.filter kind = (ms.filter kind').filter kind := by
    rw [List.filter_filter]
    refine List.filter_congr fun m mem => ?_
    cases holds : kind m
    · rfl
    · rw [implies m mem holds]
      rfl
  rw [recordsIn, recordsIn, both]
  exact List.filter_sublist.filterMap _

/-- No block of a run stands inside another block of its collector, and none belongs to a collector
that was attached before. -/
def Program.NestsApart (p : Program) (c : Channel Float) : Prop :=
  ∀ m ∈ p.moments [] c, ∀ n body, m.part = .block n body → n ∉ c.attached ∧ n ∉ m.enclosing

/-- The collector of a program that is a block. -/
def Program.collector? : Program → Option ℕ
  | block n _ => some n
  | _ => none

theorem Program.collector?_eq_some : p.collector? = some n ↔ ∃ body, p = .block n body := by
  cases p <;> simp [collector?]

instance (p : Program) (c : Channel Float) : Decidable (p.NestsApart c) :=
  decidable_of_iff (∀ m ∈ p.moments [] c, ∀ n ∈ m.part.collector?,
      n ∉ c.attached ∧ n ∉ m.enclosing) <| by
    simp only [Program.NestsApart, Option.mem_def, Program.collector?_eq_some,
      forall_exists_index]

/-- A block ends with its collector detached. -/
theorem Moment.not_mem_attached_after {m : Moment} {body : Program}
    (is_block : m.part = .block n body) : n ∉ m.after.attached := by
  rw [Moment.after, is_block]
  exact fun mem => ((mem_attached_closeBlock _).1 mem).2 rfl

theorem Moment.level_after {m : Moment} {body : Program} (is_block : m.part = .block n body) :
    m.after.level = m.before.level := by
  rw [Moment.after, is_block]
  rfl

/-- Where blocks put the attachments back, no block is entered by a collector that is attached. -/
theorem BlocksHold.nestsApart (hold : BlocksHold c p) : p.NestsApart c := by
  have detached : ∀ m ∈ p.moments [] c, ∀ n body, m.part = .block n body →
      n ∉ m.before.attached := fun m mem n body is_block here =>
    Moment.not_mem_attached_after is_block (((hold.restored m mem n body is_block).2 n).2 here)
  have attached := attached_of_apart p fun m mem n body is_block before =>
    ⟨fun old => detached m mem n body is_block (before n (.inl old)),
      fun around => detached m mem n body is_block (before n (.inr around))⟩
  intro m mem n body is_block
  have before := (attached m mem).1
  exact ⟨fun old => detached m mem n body is_block (before n (.inl old)),
    fun around => detached m mem n body is_block (before n (.inr around))⟩

theorem Program.NestsApart.blocksHold (apart : p.NestsApart c) (standard : c.IsStandard) :
    BlocksHold c p := by
  have throughout := standard.intact.moments p
  have attached := attached_of_apart p fun m mem n body is_block _ => apart m mem n body is_block
  have mem_before {m : Moment} (mem : m ∈ p.moments [] c) (k : ℕ) :
      k ∈ m.before.attached ↔ k ∈ c.attached ∨ k ∈ m.enclosing :=
    ⟨(throughout m mem).1.inside k, (attached m mem).1 k⟩
  have mem_after {m : Moment} (mem : m ∈ p.moments [] c) (k : ℕ) :
      k ∈ m.after.attached ↔ k ∈ c.attached ∨ k ∈ m.enclosing :=
    ⟨(throughout m mem).2.inside k, (attached m mem).2 k⟩
  constructor
  case enabled =>
    exact fun m mem some_block =>
      ⟨(throughout m mem).1.enabled some_block, (throughout m mem).2.enabled some_block⟩
  case restored =>
    exact fun m mem n body is_block =>
      ⟨Moment.level_after is_block, fun k => (mem_after mem k).trans (mem_before mem k).symm⟩
  case records =>
    intro n inside not_before
    rw [records_run standard inside p standard.intact, recordsIn_congr fun m mem => ?_]
    rw [Moment.keptBy, Bool.eq_iff_iff, Bool.and_eq_true, decide_eq_true_eq, decide_eq_true_eq,
      mem_before mem, or_iff_right not_before]
    exact and_iff_right_of_imp fun around =>
      (throughout m mem).1.enabled (List.ne_nil_of_mem around)

/-- Blocks keep what is published inside them as long as they are nested apart. Take any channel
with collectors of the default level, none of which is attached twice, any levels of the channel,
and any program of blocks, records, messages and failures. Inside every block records pass, every
block restores the level, and a collector keeps nothing that is published outside its blocks. Blocks
also restore the attachments, and each collector keeps all that is published inside its blocks, if
and only if no block is entered inside another block of its collector or while its collector was
attached before. -/
theorem blocksHold_iff_nestsApart (standard : c.IsStandard) (p : Program) :
    (∀ m ∈ p.moments [] c,
      (m.enclosing ≠ [] → m.before.isEnabled = true ∧ m.after.isEnabled = true) ∧
      ∀ n body, m.part = .block n body → m.after.level = m.before.level) ∧
    (∀ n < c.collectors.length, n ∉ c.attached → ∃ kept,
      (p.run c).2.records n = c.records n ++ kept ∧
        kept.Sublist (recordsIn (n ∈ ·.enclosing) (p.moments [] c))) ∧
    (BlocksHold c p ↔ p.NestsApart c) := by
  have throughout := standard.intact.moments p
  refine ⟨fun m mem => ⟨fun some_block => ?_, fun n body => Moment.level_after⟩,
    fun n inside not_before => ⟨_, records_run standard inside p standard.intact, ?_⟩,
    BlocksHold.nestsApart, fun apart => apart.blocksHold standard⟩
  · exact ⟨(throughout m mem).1.enabled some_block, (throughout m mem).2.enabled some_block⟩
  · refine recordsIn_sublist fun m mem kept => ?_
    rw [Moment.keptBy, Bool.and_eq_true, decide_eq_true_eq] at kept
    exact decide_eq_true (((throughout m mem).1.inside n kept.2).resolve_left not_before)

/-- A channel at the level of warnings with two collectors. -/
def quietChannel : Channel Float := { level := 30, collectors := [{}, {}] }

theorem isStandard_quietChannel : quietChannel.IsStandard :=
  ⟨.nil, by simp [quietChannel]⟩

/-- A block of one collector fails inside a block of the other, and the failure is handled in a
third block: each of the collectors keeps what it should. -/
theorem blocksHold_iff_nestsApart_failing :
    let p : Program := .rescue
      (.block 0 (.andThen
        (.block 1 (.andThen (.emit "x" (.int 1)) (.fail (.raised "RuntimeError" "boom"))))
        (.emit "y" (.int 2))))
      (.block 1 (.emit "z" (.int 3)))
    BlocksHold quietChannel p ∧ (p.run quietChannel).2.records 0 = [("x", .whole 1)] ∧
      (p.run quietChannel).2.records 1 = [("x", .whole 1), ("z", .whole 3)] := by
  intro p
  refine ⟨(blocksHold_iff_nestsApart isStandard_quietChannel p).2.2.2 ?_, rfl, rfl⟩
  decide

/-- Inside two blocks of one collector, the end of the inner one detaches it for the rest of the
outer one: the second record is lost. -/
theorem not_blocksHold_nested :
    let p : Program := .block 0
      (.andThen (.block 0 (.emit "x" (.int 1))) (.emit "y" (.int 2)))
    quietChannel.IsStandard ∧ (p.run quietChannel).2.records 0 = [("x", .whole 1)] ∧
      recordsIn (0 ∈ ·.enclosing) (p.moments [] quietChannel) =
        [("x", .whole 1), ("y", .whole 2)] ∧
      ¬BlocksHold quietChannel p := by
  intro p
  have lost : (p.run quietChannel).2.records 0 = [("x", .whole 1)] := rfl
  have published : recordsIn (0 ∈ ·.enclosing) (p.moments [] quietChannel) =
      [("x", .whole 1), ("y", .whole 2)] := rfl
  refine ⟨isStandard_quietChannel, lost, published, fun hold => ?_⟩
  have kept := hold.records 0 (by decide) List.not_mem_nil
  rw [lost, published] at kept
  cases kept

end PointPattern.Channel
