import TileCache.Proofs.Sink.Transparent

/-!
# Pulling what is at hand

When valid pixels of every cell are at hand, a pull computes nothing: each of its cells is a hit, no
cell is answered with zeros, and the region shows the picture.  Neither the mode nor the source
matters for that.  This is what a pull comes to after the cells have been computed on behalf of
others.
-/

set_option autoImplicit false

namespace TileCache.Sink

variable {s s' s'' : Sink} {info : ImageInfo} {picture : Picture} {cells : List Rect}

/-- With `n` hits, and nothing else, `s` becomes `s'`. -/
structure Hits (s : Sink) (n : Nat) (s' : Sink) : Prop where
  same : s' = { s with cache := s'.cache }
  counters : s'.cache.counters = { s.cache.counters with hits := s.cache.counters.hits + n }
  size : s'.cache.tiles.size = s.cache.tiles.size

theorem Hits.refl (s : Sink) : s.Hits 0 s := ⟨rfl, rfl, rfl⟩

theorem Hits.trans {m n : Nat} (h : s.Hits m s') (h' : s'.Hits n s'') : s.Hits (m + n) s'' where
  same := by
    rw [h'.same, h.same]
  counters := by
    rw [h'.counters, h.counters, Nat.add_assoc]
  size := h'.size.trans h.size

theorem hits_one (s : Sink) (id : Nat) : s.Hits 1 { s with cache := s.cache.hit id } where
  same := rfl
  counters := Cache.counters_touch _ _
  size := Cache.tiles_size_touch _ _

theorem runPull_of_cached (source : Source) (cells : List Rect) {out : Region} {valid : Rect}
    (h : s.cache.Depicts info picture)
    (hcells : ∀ cell ∈ cells, s.cache.size.IsCell cell ∧
      s.cache.isCached s.generation cell.origin = true)
    (hf : Filling info picture valid cells out) {fuel : Nat} (hfuel : cells.length < fuel)
    (jobs : List Job) :
    ∃ after filled, s.runPull source fuel ⟨out, cells, .nothing⟩ jobs =
        (after, .filled filled, jobs) ∧
      s.Hits cells.length after ∧ Filling info picture valid [] filled := by
  induction cells generalizing s out fuel with
  | nil =>
    obtain ⟨fuel, rfl⟩ : ∃ n, fuel = n + 1 := ⟨fuel - 1, by omega⟩
    exact ⟨s, out, rfl, Hits.refl s, hf⟩
  | cons cell cells ih =>
    obtain ⟨hcell, hc⟩ := hcells cell List.mem_cons_self
    obtain ⟨id, next, -, hserve, hwritten, hshows⟩ :=
      serve_of_isCached h hcell hc hf.isWhole hf.isFor cells
    rw [List.length_cons] at hfuel
    obtain ⟨fuel, rfl⟩ : ∃ n, fuel = n + 1 := ⟨fuel - 1, by omega⟩
    have hset := Cache.sameSetting_hit s.cache id
    have hrest : ∀ other ∈ cells, (s.cache.hit id).size.IsCell other ∧
        (s.cache.hit id).isCached s.generation other.origin = true := fun other ho => by
      obtain ⟨hother, hco⟩ := hcells other (List.mem_cons_of_mem _ ho)
      exact ⟨hset.size ▸ hother, h.wellFormed.isCached_hit hother hco id⟩
    obtain ⟨after, filled, hrun, hhits, hfilled⟩ := @ih { s with cache := s.cache.hit id } next
      (h.hit id) hrest (hf.write hwritten hshows) fuel (by omega)
    refine ⟨after, filled, ?_, ?_, hfilled⟩
    · rw [runPull, hserve]
      exact hrun
    · rw [List.length_cons, Nat.add_comm]
      exact (hits_one s id).trans hhits

/-- **A pull of what is at hand has only hits, and shows the picture.** -/
theorem pull_of_cached (source : Source) (h : s.cache.Depicts info picture) {rect : Rect}
    (htouches : (rect.intersect info.bounds).isEmpty = false) (hrect : Fits info rect)
    (hcached : ∀ cell ∈ (rect.intersect info.bounds).cells s.size,
      s.cache.isCached s.generation cell.origin = true)
    {out : Region} (hout : out.IsFor info) (jobs : List Job) :
    ∃ after filled, s.pull source rect out jobs = .ok (after, .filled filled, jobs) ∧
      s.Hits ((rect.intersect info.bounds).cells s.size).length after ∧
      Filling info picture (rect.intersect info.bounds) [] filled := by
  obtain ⟨buffer, hopen, hfilling⟩ := s.exists_openPull picture hout htouches hrect
  obtain ⟨after, filled, hrun, hhits, hfilled⟩ := runPull_of_cached source
    ((rect.intersect info.bounds).cells s.size) h
    (fun cell hc => ⟨(touches_of_mem htouches hrect hc).1, hcached cell hc⟩) hfilling
    (Nat.lt_succ_of_le (Nat.le_mul_of_pos_left _ Nat.two_pos)) jobs
  refine ⟨after, filled, ?_, hhits, hfilled⟩
  rw [pull_of_openPull hopen]
  exact congrArg Except.ok hrun

end TileCache.Sink
