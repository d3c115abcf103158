/-
# Answers in chunks

An oracle on a device cuts a block of queries into chunks of a size that its caller chose, and
writes the answers of each chunk into their places. After some chunks the places at the front hold
the answers to the first queries, and the others are still unwritten. Chunks of a positive size
therefore write every place once, and what is written does not depend on the size. A negative size
makes no chunk at all: the call returns, and no place is written.
-/

import PointPattern.Oracle.Device
import PointPattern.Proofs.LeaveOneOut

namespace PointPattern

namespace Oracle

variable {K : Type}

/-! ## Chunks of a positive size -/

/-- The places that the chunks of a block write, chunk by chunk. -/
def writtenPlaces (queries : List (List K)) (size : ℤ) : List ℕ :=
  (chunkStarts queries.length size).flatMap fun start =>
    List.range' start ((queries.drop start).take size.toNat).length

/-- Values that are written right behind what is written already. -/
theorem write_append (done : List K) (free : ℕ) (values : List K) (start : ℕ)
    (behind : done.length = start) :
    write (done.map some ++ List.replicate free none) start values =
      (done ++ values).map some ++ List.replicate (free - values.length) none := by
  subst behind
  simp [write, List.drop_append]

/-- After some chunks the places at the front hold the answers to the first queries. -/
theorem foldl_write (f : List K → K) (block : List (List K)) (size : ℕ) {chunks : ℕ}
    (inside : chunks * size < block.length + size) :
    ((List.range chunks).map (· * size)).foldl
        (fun places start => write places start (((block.drop start).take size).map f))
        (List.replicate block.length none) =
      ((block.take (chunks * size)).map f).map some ++
        List.replicate (block.length - chunks * size) none := by
  induction chunks with
  | zero => simp
  | succ chunks ih =>
      have start_lt : chunks * size < block.length := by
        rw [Nat.succ_mul] at inside
        omega
      have behind : ((block.take (chunks * size)).map f).length = chunks * size := by
        rw [List.length_map, List.length_take, Nat.min_eq_left start_lt.le]
      rw [List.range_succ, List.map_append, List.foldl_append, ih (by omega), List.map_singleton,
        List.foldl_cons, List.foldl_nil, write_append _ _ _ _ behind, ← List.map_append,
        ← List.take_add, Nat.succ_mul]
      congr 2
      rw [List.length_map, List.length_take, List.length_drop]
      omega

/-- After some chunks the places at the front were written, in order. -/
theorem flatMap_range' (block : List (List K)) (size : ℕ) {chunks : ℕ}
    (inside : chunks * size < block.length + size) :
    ((List.range chunks).map (· * size)).flatMap
        (fun start => List.range' start ((block.drop start).take size).length) =
      List.range (min (chunks * size) block.length) := by
  induction chunks with
  | zero => simp
  | succ chunks ih =>
      have start_lt : chunks * size < block.length := by
        rw [Nat.succ_mul] at inside
        omega
      rw [List.range_succ, List.map_append, List.flatMap_append, ih (by omega), List.map_singleton,
        List.flatMap_singleton, Nat.min_eq_left start_lt.le, List.range_eq_range']
      have next (count : ℕ) :
          List.range' 0 (chunks * size) ++ List.range' (0 + chunks * size) count =
            List.range' 0 (chunks * size + count) := List.range'_append_1
      simp only [Nat.zero_add] at next
      rw [next, List.range_eq_range', List.length_take, List.length_drop, Nat.succ_mul]
      congr 1
      omega

section Positive

variable {size : ℤ}

/-- The chunks reach the end of the block, and each of them begins inside. -/
theorem exists_chunks (count : ℕ) (size_pos : 0 < size) :
    ∃ chunks, chunkStarts count size = (List.range chunks).map (· * size.toNat) ∧
      count ≤ chunks * size.toNat ∧ chunks * size.toNat < count + size.toNat := by
  have some_size : 0 < size.toNat := by omega
  refine ⟨(count + size.toNat - 1) / size.toNat, if_neg (by omega), ?_, ?_⟩
  · have := Nat.lt_div_mul_add (a := count + size.toNat - 1) some_size
    omega
  · have := Nat.div_mul_le_self (count + size.toNat - 1) size.toNat
    omega

/-- Chunks of a positive size answer every query of a block. -/
theorem fillChunks_of_pos (f : List K → K) (block : List (List K)) (size_pos : 0 < size) :
    fillChunks (·.map f) block size = (block.map f).map some := by
  obtain ⟨chunks, starts, reach, inside⟩ := exists_chunks block.length size_pos
  rw [fillChunks, starts, foldl_write f block size.toNat inside, List.take_of_length_le reach,
    Nat.sub_eq_zero_of_le reach, List.replicate_zero, List.append_nil]

/-- They write every place once, the places in order. -/
theorem writtenPlaces_of_pos (block : List (List K)) (size_pos : 0 < size) :
    writtenPlaces block size = List.range block.length := by
  obtain ⟨chunks, starts, reach, inside⟩ := exists_chunks block.length size_pos
  rw [writtenPlaces, starts, flatMap_range' block size.toNat inside, Nat.min_eq_right reach]

end Positive

/-! ## Chunk sizes that are not positive -/

section Nonpositive

variable {size : ℤ} (nonpos : size ≤ 0)
include nonpos

theorem chunkStarts_of_nonpos (count : ℕ) : chunkStarts count size = [] := if_pos nonpos

theorem fillChunks_of_nonpos (answer : List (List K) → List K) (block : List (List K)) :
    fillChunks answer block size = List.replicate block.length none := by
  rw [fillChunks, chunkStarts_of_nonpos nonpos, List.foldl_nil]

theorem writtenPlaces_of_nonpos (block : List (List K)) : writtenPlaces block size = [] := by
  rw [writtenPlaces, chunkStarts_of_nonpos nonpos, List.flatMap_nil]

end Nonpositive

/-! ## Answers -/

namespace OnDevice

variable {σ : Type} [Scalar K] {o : OnDevice K} {log : DeviceEvent → σ → σ}
variable {rows : List (List K)} {rank : ℤ}

/-- What a caller expects of the answers to a block: there is one for every query, which was
written once, is the distance of the rank to the points, and is what the query gets alone and in
chunks of any other size. -/
structure AnswersInFull (o : OnDevice K) (log : DeviceEvent → σ → σ) (rows : List (List K))
    (rank : ℤ) (answers : List K) : Prop where
  filled : o.places (.ofRows o.points.dim rows) rank = .ok (rows, answers.map some)
  written_once : writtenPlaces rows o.chunkSize = List.range rows.length
  ranked : List.Forall₂ (fun query x =>
    IsRanked rank.toNat (o.points.points.map (o.measure query)) x) rows answers
  alone : List.Forall₂ (fun query x =>
    ∀ s, ((o.oracle log).distance (.ofPoint query) rank s).1 = .ok x) rows answers
  any_size : ∀ size : ℤ, 0 < size → ∀ s,
    (({ o with chunkSize := size }.oracle log).distances (.ofRows o.points.dim rows) rank s).1 =
      .ok ⟨[rows.length], answers⟩

section Calls

variable (rank_pos : 1 ≤ rank) (rank_le : rank ≤ o.points.size)
include rank_pos rank_le

theorem places_of_queries {g : Grid K} (asked : queries g o.points.dim = .ok rows)
    (some_size : o.chunkSize ≠ 0) :
    o.places g rank = .ok (rows, fillChunks
      (·.map (rankedDistance o.measure o.points.points rank.toNat)) rows o.chunkSize) := by
  rw [places, checkRank_of_le rank_pos rank_le, asked]
  dsimp only [bind, Except.bind]
  rw [if_neg some_size]
  rfl

/-- A chunk size of zero is refused when the call is made. -/
theorem distances_of_zero {g : Grid K} (asked : queries g o.points.dim = .ok rows)
    (zero : o.chunkSize = 0) (s : σ) :
    (o.oracle log).distances g rank s = (.error (.metric .emptyBlocks), s) := by
  have refused : o.places g rank = .error (.metric .emptyBlocks) := by
    rw [places, checkRank_of_le rank_pos rank_le, asked]
    dsimp only [bind, Except.bind]
    rw [if_pos zero]
    rfl
  simp only [oracle, answer, refused]

/-- Chunks of a positive size give every query its distance. -/
theorem distances_of_pos {g : Grid K} (asked : queries g o.points.dim = .ok rows)
    (size_pos : 0 < o.chunkSize) (s : σ) :
    ((o.oracle log).distances g rank s).1 =
      .ok (rankedDistances o.measure o.points.points rank.toNat rows) := by
  have found := places_of_queries rank_pos rank_le asked size_pos.ne'
  rw [fillChunks_of_pos _ _ size_pos] at found
  simp [oracle, answer, found, rankedDistances]

/-- Chunks of a negative size write nothing. -/
theorem distances_of_neg {g : Grid K} (asked : queries g o.points.dim = .ok rows)
    (size_neg : o.chunkSize < 0) (s : σ) :
    (o.oracle log).distances g rank s =
      (.ok ⟨[rows.length], List.replicate rows.length o.unwritten⟩, s) := by
  have found := places_of_queries rank_pos rank_le asked size_neg.ne
  rw [fillChunks_of_nonpos size_neg.le] at found
  simp [oracle, answer, found, chunkSizes, chunkStarts_of_nonpos size_neg.le]

/-- A query that is asked alone gets its distance. -/
theorem distance_of_pos {query : List K} (length : query.length = o.points.dim)
    (size_pos : 0 < o.chunkSize) (s : σ) :
    ((o.oracle log).distance (.ofPoint query) rank s).1 =
      .ok (rankedDistance o.measure o.points.points rank.toNat query) := by
  have asked : queries (.ofPoint query) o.points.dim = .ok [query] := by
    rw [queries, asBlock, Grid.ofPoint]
    dsimp only
    rw [if_pos length, Grid.cut, Grid.cut, List.take_length]
  have answered : (o.answer log (.ofPoint query) rank s).1 = _ :=
    distances_of_pos rank_pos rank_le asked size_pos s
  rw [oracle, bind_ofExcept_fst, answered]
  rfl

end Calls

/-- Chunks of a positive size answer in full. -/
theorem answersInFull_of_pos [Scalar.Ranks K] (lengths : ∀ row ∈ rows, row.length = o.points.dim)
    (rank_pos : 1 ≤ rank) (rank_le : rank ≤ o.points.size) (size_pos : 0 < o.chunkSize) :
    o.AnswersInFull log rows rank
      (rows.map (rankedDistance o.measure o.points.points rank.toNat)) := by
  have asked := queries_ofRows lengths
  have place_le : rank.toNat ≤ o.points.size := by omega
  constructor
  case filled =>
    rw [places_of_queries rank_pos rank_le asked size_pos.ne', fillChunks_of_pos _ _ size_pos]
  case written_once => exact writtenPlaces_of_pos rows size_pos
  case ranked =>
    refine List.forall₂_map_right_iff.2 (List.forall₂_same.2 fun query _ => ?_)
    exact o.points.isRanked_distanceOf (by omega) place_le o.measure query
  case alone =>
    refine List.forall₂_map_right_iff.2 (List.forall₂_same.2 fun query mem s => ?_)
    exact distance_of_pos rank_pos rank_le (lengths query mem) size_pos s
  case any_size =>
    intro size other_pos s
    exact distances_of_pos (o := { o with chunkSize := size }) rank_pos rank_le asked other_pos s

/-- Without a chunk a block is answered in full only if it has no query. -/
theorem answersInFull_iff_of_neg [Scalar.Ranks K]
    (lengths : ∀ row ∈ rows, row.length = o.points.dim) (rank_pos : 1 ≤ rank)
    (rank_le : rank ≤ o.points.size) (size_neg : o.chunkSize < 0) :
    o.AnswersInFull log rows rank (List.replicate rows.length o.unwritten) ↔ rows = [] := by
  constructor
  · intro full
    have nothing := full.written_once
    rw [writtenPlaces_of_nonpos size_neg.le] at nothing
    exact List.length_eq_zero_iff.1 (List.range_eq_nil.1 nothing.symm)
  · rintro rfl
    have asked := queries_ofRows lengths
    refine ⟨?_, writtenPlaces_of_nonpos size_neg.le [], .nil, .nil, fun size other_pos s => ?_⟩
    · rw [places_of_queries rank_pos rank_le asked size_neg.ne, fillChunks_of_nonpos size_neg.le]
      rfl
    · exact distances_of_pos (o := { o with chunkSize := size }) rank_pos rank_le asked other_pos s

/-- Take any block of queries of the right dimension, any rank of the corpus and any chunk size.
The block is refused exactly if the size is zero. Whenever an answer is returned it is in full
exactly if the size is positive, or if nothing was asked: with a negative size there is no chunk,
and every place is returned as it was, unwritten. -/
theorem distances_in_full_iff [Scalar.Ranks K] (o : OnDevice K) (log : DeviceEvent → σ → σ)
    (lengths : ∀ row ∈ rows, row.length = o.points.dim) (rank_pos : 1 ≤ rank)
    (rank_le : rank ≤ o.points.size) (s : σ) :
    let asked := (o.oracle log).distances (.ofRows o.points.dim rows) rank s
    (∀ answers, asked.1 = .ok answers → answers.shape = [rows.length] ∧
        (o.AnswersInFull log rows rank answers.values ↔ 0 < o.chunkSize ∨ rows = [])) ∧
      (o.chunkSize < 0 → writtenPlaces rows o.chunkSize = [] ∧
        asked = (.ok ⟨[rows.length], List.replicate rows.length o.unwritten⟩, s)) ∧
      if o.chunkSize = 0 then asked = (.error (.metric .emptyBlocks), s)
      else ∃ answers, asked.1 = .ok answers := by
  intro asked
  have block := queries_ofRows lengths
  rcases lt_trichotomy o.chunkSize 0 with size_neg | zero | size_pos
  · have returned : asked = (.ok ⟨[rows.length], _⟩, s) :=
      distances_of_neg rank_pos rank_le block size_neg s
    refine ⟨fun answers ended => ?_, fun _ => ⟨writtenPlaces_of_nonpos size_neg.le rows, returned⟩,
      ?_⟩
    · rw [returned] at ended
      cases ended
      refine ⟨rfl, (answersInFull_iff_of_neg lengths rank_pos rank_le size_neg).trans ?_⟩
      simp [size_neg.not_gt]
    · rw [if_neg size_neg.ne, returned]
      exact ⟨_, rfl⟩
  · have refused : asked = (.error (.metric .emptyBlocks), s) :=
      distances_of_zero rank_pos rank_le block zero s
    refine ⟨fun answers ended => ?_, fun size_neg => absurd zero size_neg.ne, ?_⟩
    · rw [refused] at ended
      cases ended
    · rwa [if_pos zero]
  · have returned : asked.1 = .ok (rankedDistances _ _ _ _) :=
      distances_of_pos rank_pos rank_le block size_pos s
    refine ⟨fun answers ended => ?_, fun size_neg => absurd size_pos size_neg.not_gt, ?_⟩
    · rw [returned] at ended
      cases ended
      exact ⟨rfl, iff_of_true (answersInFull_of_pos lengths rank_pos rank_le size_pos)
        (.inl size_pos)⟩
    · rw [if_neg size_pos.ne']
      exact ⟨_, returned⟩

/-- Seven points in the same place of the plane. -/
def origins : PointSet Float where
  dim := 2
  points := List.replicate 7 [0, 0]
  dim_pos := Nat.two_pos
  points_ne_nil := List.cons_ne_nil _ _
  length_eq := by simp

/-- Fourteen queries in chunks of four, the last of which is smaller. -/
theorem distances_in_full_iff_origins :
    let o : OnDevice Float := ⟨.cpu, origins, 4, deviceMeasure .cpu 2, 0⟩
    let log (event : DeviceEvent) (events : List DeviceEvent) := events ++ [event]
    let asked := (o.oracle log).distances (.ofRows 2 (List.replicate 14 [3, 4])) 1 []
    asked.2 = [.distances 4 7, .distances 4 7, .distances 4 7, .distances 2 7] ∧
      ∃ answers, asked.1 = .ok answers ∧ o.AnswersInFull log (List.replicate 14 [3, 4]) 1
        answers.values := by
  intro o log asked
  have lengths : ∀ row ∈ List.replicate 14 ([3, 4] : List Float), row.length = o.points.dim :=
    fun row mem => List.eq_of_mem_replicate mem ▸ rfl
  have in_full := distances_in_full_iff o log lengths (le_refl (1 : ℤ)) (by decide) []
  have some_size : o.chunkSize ≠ 0 := by decide
  obtain ⟨answers, returned⟩ := (if_neg some_size).mp in_full.2.2
  exact ⟨by decide +kernel, answers, returned, (in_full.1 answers returned).2.2 (.inl (by decide))⟩

/-- The same queries in chunks of size minus one: the oracle is built and returns zeros, which are
what its unwritten places hold, although every query has distance five. -/
theorem distances_unwritten_origins :
    ∃ o, onDevice? (some ⟨false, none⟩) origins "cpu" (.real 2) (.int (-1)) = .ok o ∧
      ∀ log : DeviceEvent → Unit → Unit,
        ((o.oracle log).distances (.ofRows 2 (List.replicate 14 [3, 4])) 1 ()).1 =
            .ok ⟨[14], List.replicate 14 0⟩ ∧
          ¬o.AnswersInFull log (List.replicate 14 [3, 4]) 1 (List.replicate 14 0) ∧
          ∃ o', onDevice? (some ⟨false, none⟩) origins "cpu" (.real 2) (.int 4096) = .ok o' ∧
            ((o'.oracle log).distances (.ofRows 2 (List.replicate 14 [3, 4])) 1 ()).1 =
              .ok ⟨[14], List.replicate 14 5⟩ := by
  have lengths : ∀ row ∈ List.replicate 14 ([3, 4] : List Float), row.length = origins.dim :=
    fun row mem => List.eq_of_mem_replicate mem ▸ rfl
  have block := queries_ofRows lengths
  have five : rankedDistance (deviceMeasure .cpu 2) origins.points 1 [3, 4] = (5 : Float) := by
    decide +kernel
  let o (size : ℤ) : OnDevice Float := ⟨.cpu, origins, size, deviceMeasure .cpu 2, 0⟩
  refine ⟨o (-1), rfl, fun log => ⟨?_, ?_, o 4096, rfl, ?_⟩⟩
  · exact congrArg Prod.fst
      (distances_of_neg (o := o (-1)) (le_refl 1) (by decide) block (by decide) ())
  · intro full
    cases full.written_once
  · refine (distances_of_pos (o := o 4096) (le_refl 1) (by decide) block (by decide) ()).trans ?_
    have answers : (List.replicate 14 [3, 4]).map (rankedDistance _ origins.points 1) =
        List.replicate 14 5 := List.map_replicate.trans (congrArg _ five)
    exact congrArg (fun values => Except.ok (Grid.mk [14] values)) answers

end OnDevice

end Oracle

end PointPattern
