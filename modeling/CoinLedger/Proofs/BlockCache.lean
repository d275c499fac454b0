import CoinLedger.Proofs.CachedQuery
import CoinLedger.Proofs.Distinct
import Mathlib.Data.List.Infix

/-!
# Reads through a block cache

A cache keeps the blocks that were found most recently.  What a row of reads leaves in it is a
function of the heights alone: the last distinct heights of found blocks, up to the capacity
(`keptHeights`).  One read keeps a cache in this state (`Remembers.read`), so after every row of
reads it is in it (`remembers_readAll`).  From this follows what the reads do (`readsThrough`): they
answer what the source answers, a read hits exactly the kept heights, the counters are exact, and a
cache that has room for all blocks reads each of them from the source once.  Without room for all of
them it does so too when equal heights are read one after the other (`sourceReads_of_adjacent`).
-/

set_option autoImplicit false

namespace CoinLedger

/-! ## The most recent items -/

section Recent

variable {α : Type} [DecidableEq α]

theorem eraseDups_filter (keeps : α → Bool) (items : List α) :
    (items.filter keeps).eraseDups = items.eraseDups.filter keeps := by
  induction items using List.reverseRecOn with
  | nil => rfl
  | append_singleton before item ih =>
      rw [List.filter_append, eraseDups_concat, List.filter_append, ← ih]
      by_cases kept : keeps item = true
      · rw [List.filter_singleton, kept, cond_true, eraseDups_concat]
        by_cases known : item ∈ before <;> simp [known, kept]
      · by_cases known : item ∈ before <;> simp [known, kept]

omit [DecidableEq α] in
theorem take_filter_of_forall {keeps : α → Bool} {items : List α} {size : Nat}
    (all : ∀ item ∈ items.take size, keeps item = true) :
    (items.filter keeps).take size = items.take size := by
  induction items generalizing size with
  | nil => rfl
  | cons item rest ih =>
      cases size with
      | zero => rfl
      | succ size =>
          have kept : keeps item = true := all item List.mem_cons_self
          rw [List.filter_cons_of_pos kept, List.take_succ_cons, List.take_succ_cons,
            ih fun other member => all other (List.mem_cons_of_mem _ member)]

/-- Without one of the first items one item less is taken. -/
theorem take_filter_ne {items : List α} {item : α} {size : Nat} (distinct : items.Nodup)
    (member : item ∈ items.take (size + 1)) :
    (items.filter (· ≠ item)).take size = (items.take (size + 1)).filter (· ≠ item) := by
  induction items generalizing size with
  | nil => cases member
  | cons first rest ih =>
      obtain ⟨new, distinct⟩ := List.nodup_cons.mp distinct
      rw [List.take_succ_cons] at member ⊢
      by_cases own : first = item
      · subst own
        have absent : ∀ other ∈ rest, decide (other ≠ first) = true := fun other inside =>
          decide_eq_true fun same => new (same ▸ inside)
        have absentFirst : ∀ other ∈ rest.take size, decide (other ≠ first) = true :=
          fun other inside => absent other (List.mem_of_mem_take inside)
        rw [List.filter_cons_of_neg (by simp), List.filter_cons_of_neg (by simp),
          List.filter_eq_self.mpr absent, List.filter_eq_self.mpr absentFirst]
      · have later : item ∈ rest.take size :=
          (List.mem_cons.mp member).resolve_left (Ne.symm own)
        cases size with
        | zero => cases later
        | succ size =>
            rw [List.filter_cons_of_pos (by simpa using own),
              List.filter_cons_of_pos (by simpa using own), List.take_succ_cons, ih distinct later]

end Recent

namespace BlockCache

variable {source : Int32 → Answer Block} {capacity : Nat}

/-! ## The heights that are kept -/

/-- Whether the source has a block at a height. -/
def finds (source : Int32 → Answer Block) (height : Int32) : Bool :=
  (source height).isOk

/-- The heights of the blocks that a row of reads found, the last one first, each of them once. -/
def recentHeights (source : Int32 → Answer Block) (reads : List Int32) : List Int32 :=
  (reads.reverse.filter (finds source)).eraseDups

/-- The most recent heights, as many as a cache of the capacity keeps. -/
def keptHeights (source : Int32 → Answer Block) (capacity : Nat) (reads : List Int32) :
    List Int32 :=
  (recentHeights source reads).take (max capacity 1)

theorem finds_of_eq_ok {height : Int32} {block : Block} (found : source height = .ok block) :
    finds source height = true := by
  rw [finds, found]
  rfl

theorem finds_of_eq_error {height : Int32} {error : QueryError}
    (fails : source height = .error error) : finds source height = false := by
  rw [finds, fails]
  rfl

theorem nodup_recentHeights (reads : List Int32) : (recentHeights source reads).Nodup :=
  nodup_eraseDups _

theorem mem_recentHeights {reads : List Int32} {height : Int32} :
    height ∈ recentHeights source reads ↔ height ∈ reads ∧ finds source height = true := by
  rw [recentHeights, List.mem_eraseDups, List.mem_filter, List.mem_reverse]

/-- A block that was found becomes the most recent one. -/
theorem recentHeights_concat_of_finds (reads : List Int32) {height : Int32}
    (found : finds source height = true) :
    recentHeights source (reads ++ [height]) =
      height :: (recentHeights source reads).filter (· ≠ height) := by
  rw [recentHeights, List.reverse_concat, List.filter_cons_of_pos found, List.eraseDups_cons,
    eraseDups_filter]
  congr 1
  refine List.filter_congr fun other _ => ?_
  rw [decide_not]
  rfl

theorem recentHeights_concat_of_not_finds (reads : List Int32) {height : Int32}
    (fails : finds source height = false) :
    recentHeights source (reads ++ [height]) = recentHeights source reads := by
  rw [recentHeights, List.reverse_concat, List.filter_cons_of_neg (by simp [fails])]
  rfl

/-- A kept height moves to the front. -/
theorem keptHeights_of_mem {reads : List Int32} {height : Int32}
    (kept : height ∈ keptHeights source capacity reads) :
    keptHeights source capacity (reads ++ [height]) =
      height :: (keptHeights source capacity reads).filter (· ≠ height) := by
  have found := (mem_recentHeights.mp (List.mem_of_mem_take kept)).2
  obtain ⟨size, room⟩ : ∃ size, max capacity 1 = size + 1 :=
    Nat.exists_eq_succ_of_ne_zero (by omega)
  rw [keptHeights, room] at kept
  rw [keptHeights, keptHeights, room, recentHeights_concat_of_finds reads found,
    List.take_succ_cons, take_filter_ne (nodup_recentHeights reads) kept]

/-- A new height is put in front of the others, and the last one has to go when there is no room
left. -/
theorem keptHeights_of_not_mem {reads : List Int32} {height : Int32}
    (found : finds source height = true) (new : height ∉ keptHeights source capacity reads) :
    keptHeights source capacity (reads ++ [height]) =
      (height :: keptHeights source capacity reads).take (max capacity 1) := by
  obtain ⟨size, room⟩ : ∃ size, max capacity 1 = size + 1 :=
    Nat.exists_eq_succ_of_ne_zero (by omega)
  rw [keptHeights, room] at new
  -- The height may be an older one that was evicted; it is not among those that stay.
  have others : ∀ other ∈ (recentHeights source reads).take size,
      decide (other ≠ height) = true := by
    intro other member
    refine decide_eq_true fun same => new (same ▸ ?_)
    exact List.take_subset_take_left _ (Nat.le_succ size) member
  rw [keptHeights, keptHeights, room, recentHeights_concat_of_finds reads found,
    List.take_succ_cons, List.take_succ_cons, take_filter_of_forall others, List.take_take,
    Nat.min_eq_left (Nat.le_succ size)]

/-! ## One read -/

/-- The cache is in the state that a row of reads leaves. -/
structure Remembers (source : Int32 → Answer Block) (capacity : Nat) (reads : List Int32)
    (cache : BlockCache) : Prop where
  room : cache.capacity = max capacity 1
  faithful : cache.Faithful source
  kept : cache.entries.map Prod.fst = keptHeights source capacity reads

/-- How one read changes the counters. -/
structure Counts (source : Int32 → Answer Block) (kept : List Int32) (height : Int32)
    (cache after : BlockCache) : Prop where
  /-- A read of a kept height is a hit, and no other one is. -/
  hits : after.hits = cache.hits + if height ∈ kept then 1 else 0
  /-- A read that found its block elsewhere is a miss. -/
  misses : after.misses =
    cache.misses + if height ∉ kept ∧ finds source height = true then 1 else 0
  /-- A read that is no hit reaches the source. -/
  sourceReads : after.sourceReads = cache.sourceReads + if height ∈ kept then 0 else 1

theorem remembers_ofCapacity (capacity : Nat) :
    (ofCapacity capacity).Remembers source capacity [] where
  room := rfl
  faithful := faithful_ofCapacity capacity
  kept := List.take_nil.symm

section Read

variable {cache : BlockCache} {height : Int32}

/-- A hit moves its block to the front. -/
theorem read_of_lookup {block : Block} (looked : cache.entries.lookup height = some block) :
    cache.read source height =
      (.ok block,
        { cache with
          entries := (height, block) :: cache.entries.filter (·.1 ≠ height)
          hits := cache.hits + 1 }) := by
  rw [read, looked]

/-- A miss puts its block in front, and the last block has to go when there is no room left. -/
theorem read_of_found {block : Block} (looked : cache.entries.lookup height = none)
    (answered : source height = .ok block) :
    cache.read source height =
      (.ok block,
        { cache with
          entries := ((height, block) :: cache.entries).take cache.capacity
          misses := cache.misses + 1
          sourceReads := cache.sourceReads + 1 }) := by
  rw [read, looked, answered]

/-- A read that fails leaves the blocks as they are. -/
theorem read_of_failed {error : QueryError} (looked : cache.entries.lookup height = none)
    (answered : source height = .error error) :
    cache.read source height =
      (.error error, { cache with sourceReads := cache.sourceReads + 1 }) := by
  rw [read, looked, answered]

end Read

namespace Remembers

variable {reads : List Int32} {cache : BlockCache}

/-- A height is kept exactly when the cache has a block for it. -/
theorem mem_iff (state : cache.Remembers source capacity reads) {height : Int32} :
    height ∈ keptHeights source capacity reads ↔
      ∃ block, cache.entries.lookup height = some block := by
  rw [← state.kept]
  constructor
  · intro member
    cases found : cache.entries.lookup height with
    | some block => exact ⟨block, rfl⟩
    | none =>
        obtain ⟨entry, listed, same⟩ := List.mem_map.mp member
        exact absurd same.symm (by simpa using List.lookup_eq_none_iff.mp found entry listed)
  · rintro ⟨block, found⟩
    exact List.mem_map_of_mem (lookup_mem found)

/-- **A read leaves the state of the row with one more read, and counts itself.** -/
theorem read (state : cache.Remembers source capacity reads) (height : Int32) :
    (cache.read source height).2.Remembers source capacity (reads ++ [height]) ∧
      Counts source (keptHeights source capacity reads) height cache
        (cache.read source height).2 := by
  have faithful := state.faithful.read_snd height
  cases looked : cache.entries.lookup height with
  | some block =>
      have kept := state.mem_iff.mpr ⟨block, looked⟩
      rw [read_of_lookup looked] at faithful ⊢
      refine ⟨⟨state.room, faithful, ?_⟩, ?_, ?_, ?_⟩
      · rw [keptHeights_of_mem kept, ← state.kept, List.filter_map]
        rfl
      · simp [kept]
      · simp [kept]
      · simp [kept]
  | none =>
      have new : height ∉ keptHeights source capacity reads := by
        intro kept
        obtain ⟨block, found⟩ := state.mem_iff.mp kept
        cases looked.symm.trans found
      cases answered : source height with
      | ok block =>
          have found := finds_of_eq_ok answered
          rw [read_of_found looked answered] at faithful ⊢
          refine ⟨⟨state.room, faithful, ?_⟩, ?_, ?_, ?_⟩
          · rw [keptHeights_of_not_mem found new, ← state.kept, ← state.room, List.map_take]
            rfl
          · simp [new]
          · simp [new, found]
          · simp [new]
      | error error =>
          have fails := finds_of_eq_error answered
          rw [read_of_failed looked answered] at faithful ⊢
          refine ⟨⟨state.room, faithful, ?_⟩, ?_, ?_, ?_⟩
          · rw [keptHeights, recentHeights_concat_of_not_finds reads fails]
            exact state.kept
          · simp [new]
          · simp [fails]
          · simp [new]

end Remembers

/-! ## Rows of reads -/

/-- The cache after a row of reads. -/
def readAll (source : Int32 → Answer Block) (reads : List Int32) (cache : BlockCache) :
    BlockCache :=
  reads.foldl (fun cache height => (cache.read source height).2) cache

/-- The heights whose reads reach the source. -/
def sourceHeights (source : Int32 → Answer Block) : List Int32 → BlockCache → List Int32
  | [], _ => []
  | height :: rest, cache =>
    let after := (cache.read source height).2
    if cache.sourceReads < after.sourceReads then height :: sourceHeights source rest after
    else sourceHeights source rest after

theorem readAll_append (first second : List Int32) (cache : BlockCache) :
    readAll source (first ++ second) cache = readAll source second (readAll source first cache) :=
  List.foldl_append

theorem readAll_concat (reads : List Int32) (height : Int32) (cache : BlockCache) :
    readAll source (reads ++ [height]) cache =
      ((readAll source reads cache).read source height).2 := by
  rw [readAll, List.foldl_concat]
  rfl

theorem readEach_concat (reads : List Int32) (height : Int32) (cache : BlockCache) :
    readEach source (reads ++ [height]) cache =
      readEach source reads cache ++ [(readAll source reads cache).read source height] := by
  induction reads generalizing cache with
  | nil => rfl
  | cons first rest ih => exact congrArg (cache.read source first :: ·) (ih _)

theorem sourceHeights_concat (reads : List Int32) (height : Int32) (cache : BlockCache) :
    sourceHeights source (reads ++ [height]) cache =
      sourceHeights source reads cache ++
        if (readAll source reads cache).sourceReads <
            (readAll source (reads ++ [height]) cache).sourceReads then [height] else [] := by
  induction reads generalizing cache with
  | nil => rfl
  | cons first rest ih =>
      rw [List.cons_append, sourceHeights, sourceHeights, ih]
      by_cases reached : cache.sourceReads < (cache.read source first).2.sourceReads
      · rw [if_pos reached, if_pos reached]
        rfl
      · rw [if_neg reached, if_neg reached]
        rfl

/-- What a row of reads does through a cache of a capacity that starts empty. -/
structure ReadsThrough (source : Int32 → Answer Block) (capacity : Nat) (reads : List Int32) :
    Prop where
  /-- The reads answer what the source answers. -/
  answers : (readEach source reads (ofCapacity capacity)).map Prod.fst = reads.map source
  /-- The caches after the reads are those after the parts of the row. -/
  caches : (readEach source reads (ofCapacity capacity)).map Prod.snd =
    reads.inits.tail.map fun part => readAll source part (ofCapacity capacity)
  /-- Each read hits exactly the heights that the reads before it keep. -/
  counts : ∀ before height, before ++ [height] <+: reads →
    Counts source (keptHeights source capacity before) height
      (readAll source before (ofCapacity capacity))
      (readAll source (before ++ [height]) (ofCapacity capacity))
  /-- A read that succeeds is a hit or a miss. -/
  succeeded : (readAll source reads (ofCapacity capacity)).hits +
    (readAll source reads (ofCapacity capacity)).misses = reads.countP (finds source)
  /-- The misses and the reads that fail reach the source. -/
  reached : (readAll source reads (ofCapacity capacity)).sourceReads =
    (readAll source reads (ofCapacity capacity)).misses + reads.countP fun height =>
      !finds source height
  /-- When all blocks have room, each of them is read from the source once. -/
  once : (recentHeights source reads).length ≤ max capacity 1 →
    ∀ height ∈ reads, finds source height = true →
      (sourceHeights source reads (ofCapacity capacity)).count height = 1

/-- **A row of reads leaves a cache in the state that its heights determine.** -/
theorem remembers_readAll (source : Int32 → Answer Block) (capacity : Nat) (reads : List Int32) :
    (readAll source reads (ofCapacity capacity)).Remembers source capacity reads := by
  induction reads using List.reverseRecOn with
  | nil => exact remembers_ofCapacity capacity
  | append_singleton before height ih =>
      rw [readAll_concat]
      exact (ih.read height).1

theorem counts_readAll (source : Int32 → Answer Block) (capacity : Nat) (before : List Int32)
    (height : Int32) :
    Counts source (keptHeights source capacity before) height
      (readAll source before (ofCapacity capacity))
      (readAll source (before ++ [height]) (ofCapacity capacity)) := by
  rw [readAll_concat]
  exact ((remembers_readAll source capacity before).read height).2

theorem length_recentHeights_le (before : List Int32) (height : Int32) :
    (recentHeights source before).length ≤ (recentHeights source (before ++ [height])).length := by
  refine ((nodup_recentHeights before).subperm fun other member => ?_).length_le
  obtain ⟨read, found⟩ := mem_recentHeights.mp member
  exact mem_recentHeights.mpr ⟨List.mem_append_left _ read, found⟩

theorem sourceReads_le_read (height : Int32) (cache : BlockCache) :
    cache.sourceReads ≤ (cache.read source height).2.sourceReads := by
  cases looked : cache.entries.lookup height with
  | some block => rw [read_of_lookup looked]
  | none =>
      cases answered : source height with
      | ok block =>
          rw [read_of_found looked answered]
          exact Nat.le_succ _
      | error error =>
          rw [read_of_failed looked answered]
          exact Nat.le_succ _

/-- **Reads of one height after the other reach the source once for each height**, also when there
are more heights than the cache keeps. -/
theorem sourceReads_of_adjacent {reads : List Int32} (adjacent : Adjacent reads)
    (found : ∀ height ∈ reads, finds source height = true) :
    (readAll source reads (ofCapacity capacity)).sourceReads = reads.eraseDups.length := by
  induction reads using List.reverseRecOn with
  | nil => rfl
  | append_singleton before height ih =>
      obtain ⟨adjacent, last⟩ := adjacent.of_concat
      have counts := (counts_readAll source capacity before height).sourceReads
      -- A height that was read before was read last, so it is the most recent one.
      have kept : height ∈ keptHeights source capacity before ↔ height ∈ before := by
        constructor
        · intro member
          exact (mem_recentHeights.mp (List.mem_of_mem_take member)).1
        · intro member
          obtain ⟨front, rfl⟩ := List.getLast?_eq_some_iff.mp (last member)
          obtain ⟨size, room⟩ : ∃ size, max capacity 1 = size + 1 :=
            Nat.exists_eq_succ_of_ne_zero (by omega)
          rw [keptHeights, room, recentHeights_concat_of_finds front (found height (by simp)),
            List.take_succ_cons]
          exact List.mem_cons_self
      rw [counts, ih adjacent fun other member => found other (List.mem_append_left _ member),
        eraseDups_concat, List.length_append]
      by_cases again : height ∈ before <;> simp [kept, again]

/-- A cache with room for all blocks reads each of them from the source at its first read. -/
theorem count_sourceHeights {reads : List Int32} {height : Int32}
    (found : finds source height = true)
    (room : (recentHeights source reads).length ≤ max capacity 1) :
    (sourceHeights source reads (ofCapacity capacity)).count height =
      if height ∈ reads then 1 else 0 := by
  induction reads using List.reverseRecOn with
  | nil => rfl
  | append_singleton before last ih =>
      have roomBefore := (length_recentHeights_le before last).trans room
      have counts := (counts_readAll source capacity before last).sourceReads
      -- Nothing was evicted yet, so the kept heights are all that were found.
      have kept : last ∈ keptHeights source capacity before ↔
          last ∈ before ∧ finds source last = true := by
        rw [keptHeights, List.take_of_length_le roomBefore, mem_recentHeights]
      rw [sourceHeights_concat, List.count_append, ih roomBefore, counts]
      by_cases own : last = height
      · subst own
        by_cases known : last ∈ before
        · simp [kept, known, found]
        · simp [kept, known]
      · have other : height ≠ last := Ne.symm own
        by_cases hit : last ∈ keptHeights source capacity before <;> simp [hit, other, own]

theorem map_fst_readEach (source : Int32 → Answer Block) (capacity : Nat) (reads : List Int32) :
    (readEach source reads (ofCapacity capacity)).map Prod.fst = reads.map source := by
  induction reads using List.reverseRecOn with
  | nil => rfl
  | append_singleton before height ih =>
      have faithful := (remembers_readAll source capacity before).faithful
      rw [readEach_concat, List.map_append, List.map_append, ih, List.map_singleton,
        List.map_singleton, faithful.read_fst]

theorem map_snd_readEach (source : Int32 → Answer Block) (reads : List Int32) (cache : BlockCache) :
    (readEach source reads cache).map Prod.snd =
      reads.inits.tail.map fun part => readAll source part cache := by
  induction reads using List.reverseRecOn with
  | nil => rfl
  | append_singleton before height ih =>
      have nonempty : before.inits ≠ [] := by cases before <;> simp
      rw [readEach_concat, List.map_append, ih, List.inits_append,
        List.tail_append_of_ne_nil nonempty, List.map_append, List.map_singleton, ← readAll_concat]
      rfl

/-- The counters after a row of reads. -/
theorem totals_readAll (source : Int32 → Answer Block) (capacity : Nat) (reads : List Int32)
    {cache : BlockCache} (after : cache = readAll source reads (ofCapacity capacity)) :
    cache.hits + cache.misses = reads.countP (finds source) ∧
      cache.sourceReads = cache.misses + reads.countP fun height => !finds source height := by
  induction reads using List.reverseRecOn generalizing cache with
  | nil =>
      subst after
      exact ⟨rfl, rfl⟩
  | append_singleton before height ih =>
      obtain ⟨succeeded, reached⟩ := ih rfl
      have counts := counts_readAll source capacity before height
      have kept : height ∈ keptHeights source capacity before → finds source height = true :=
        fun member => (mem_recentHeights.mp (List.mem_of_mem_take member)).2
      rw [← after] at counts
      rw [counts.hits, counts.misses, counts.sourceReads, List.countP_append, List.countP_append,
        ← succeeded, reached]
      by_cases hit : height ∈ keptHeights source capacity before
      · simp [hit, kept hit]
        omega
      · cases found : finds source height <;> simp [hit, found] <;> omega

/-- **Reads through a cache are those of the source, and its counters are exact.** -/
theorem readsThrough (source : Int32 → Answer Block) (capacity : Nat) (reads : List Int32) :
    ReadsThrough source capacity reads where
  answers := map_fst_readEach source capacity reads
  caches := map_snd_readEach source reads _
  counts before height _ := counts_readAll source capacity before height
  succeeded := (totals_readAll source capacity reads rfl).1
  reached := (totals_readAll source capacity reads rfl).2
  once room height member found := by
    rw [count_sourceHeights found room, if_pos member]

end BlockCache

end CoinLedger
