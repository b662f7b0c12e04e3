import TileCache.Proofs.Cache.Touring
import TileCache.Proofs.Sink.Repull

/-!
# Background pulls on their own

Nothing else goes on while a background sink is pulled: the jobs that the pull hands out are
collected, and done after it.  `Awaits` is the invariant that links the sink to the jobs that it has
not got back, and `Went` says what a pull leaves besides.

* A cell whose pixels were not at hand at the beginning is answered with zeros (`Went.missing`),
  since no tile becomes valid while the pull goes on.
* If the cells are no more than the tiles that the sink may have, then all of them have a tile in
  the end (`Went.touring`), and pixels of all of them are at hand when the jobs have been done
  (`Awaits.runJobs`).
* There are never more cells at hand than tiles, so of more cells than tiles some are always missing
  (`le_countP_lacks`).
-/

set_option autoImplicit false

namespace TileCache.Sink

variable {s s' s'' : Sink} {info : ImageInfo} {picture : Picture} {source : Source}
  {jobs rest : List Job} {job : Job} {cell : Rect} {cells : List Rect} {out : Region}

/-- An open background sink over a source of one picture.  The tiles in computation are those of the
jobs, whose buffers are in order. -/
structure Awaits (info : ImageInfo) (picture : Picture) (s : Sink) (jobs : List Job) : Prop where
  mode : s.config.mode = .background
  depicts : s.cache.Depicts info picture
  ordered : s.cache.Ordered
  accounts : s.cache.Accounts jobs
  travels : ∀ job ∈ jobs, Engine.Travels info job

/-- Are there no valid pixels at hand for the cell? -/
def Lacks (s : Sink) (cell : Rect) : Bool := !s.cache.isCached s.generation cell.origin

/-- What a pull of `cells` makes of the sink `s`, besides the jobs that it hands out. -/
structure Went (s : Sink) (cells : List Rect) (s' : Sink) : Prop where
  generation : s'.generation = s.generation
  setting : s.cache.SameSetting s'.cache
  lacks : ∀ cell, s.cache.size.IsCell cell → s.Lacks cell = true → s'.Lacks cell = true
  missing : s.zeroFilled + cells.countP s.Lacks ≤ s'.zeroFilled
  touring : ∀ (since : Nat) (asked : List Rect), s.cache.Touring s.generation since asked →
    (∀ limit, s.cache.budget.limit? = some limit → cells.length + asked.length ≤ limit) →
    (cells ++ asked).Nodup → s'.cache.Touring s.generation since (cells.reverse ++ asked)

theorem Awaits.perm (h : s.Awaits info picture jobs) (hp : jobs.Perm rest) :
    s.Awaits info picture rest :=
  ⟨h.mode, h.depicts, h.ordered, h.accounts.perm hp, fun job hj => h.travels job (hp.mem_iff.2 hj)⟩

/-! ## Pulls -/

theorem Went.nil (s : Sink) : s.Went [] s where
  generation := rfl
  setting := ⟨rfl, rfl, rfl, rfl⟩
  lacks := fun _ _ h => h
  missing := Nat.le_refl _
  touring := fun _ _ h _ _ => h

/-- One cell, and then the others. -/
theorem Went.cons (h : s.Went [cell] s') (h' : s'.Went cells s'')
    (hcells : ∀ other ∈ cells, s.cache.size.IsCell other) : s.Went (cell :: cells) s'' where
  generation := h'.generation.trans h.generation
  setting := h.setting.trans h'.setting
  lacks := fun other ho hl => h'.lacks other (h.setting.size ▸ ho) (h.lacks other ho hl)
  missing := by
    have hmore : cells.countP s.Lacks ≤ cells.countP s'.Lacks :=
      List.countP_mono_left fun other ho => h.lacks other (hcells other ho)
    have hfirst := h.missing
    have hothers := h'.missing
    rw [List.countP_singleton] at hfirst
    rw [List.countP_cons]
    omega
  touring := by
    intro since asked ht hroom hnodup
    rw [List.length_cons] at hroom
    rw [List.cons_append, List.nodup_cons] at hnodup
    obtain ⟨hnew, hrest⟩ := hnodup
    rw [List.mem_append, not_or] at hnew
    have hone := h.touring since asked ht
      (fun limit hl => Nat.le_trans (by rw [List.length_singleton]; omega) (hroom limit hl))
      (List.nodup_cons.2 ⟨hnew.2, hrest.of_append_right⟩)
    rw [← h.generation] at hone ⊢
    have hall := h'.touring since (cell :: asked) hone
      (fun limit hl => by
        rw [h.setting.budget] at hl
        have := hroom limit hl
        rw [List.length_cons]
        omega)
      (List.nodup_middle.2 (List.nodup_cons.2 ⟨by simpa using hnew, hrest⟩))
    rw [List.reverse_cons, List.append_assoc]
    exact hall

/-- **A step asks for one cell**, answers it, and hands out at most one job. -/
theorem Awaits.serve (h : s.Awaits info picture jobs) (hcell : s.cache.size.IsCell cell)
    (htouches : (cell.intersect info.bounds).isEmpty = false) (hwhole : out.IsWhole)
    (hfor : out.IsFor info) (cells : List Rect) :
    ∃ s' next job?, s.serve ⟨out, cell :: cells, .nothing⟩ 0 =
        (s', .went ⟨next, cells, .nothing⟩, job?) ∧
      s'.Awaits info picture (job?.toList ++ jobs) ∧ s.Went [cell] s' ∧
      out.WrittenIn cell next := by
  obtain ⟨next, zeroFilled, hserve, hwritten, hanswer⟩ :=
    serve_in_background h.mode h.depicts hcell hwhole hfor cells
  have hw := h.depicts.wellFormed
  have hset := Cache.sameSetting_acquire hw s.generation cell
  have hdepicts := h.depicts.acquire s.generation hcell
  have hordered := h.ordered.acquire hw s.generation hcell
  refine ⟨_, next, _, hserve, ⟨h.mode, hdepicts, hordered, ?_, ?_⟩, ⟨rfl, hset, ?_, ?_, ?_⟩,
    hwritten⟩
  · cases ha : s.cache.acquire s.generation cell with
    | mk d acquired =>
      cases acquired with
      | compute job => exact h.accounts.acquire_compute hw hcell ha
      | ready id => exact h.accounts.acquire hw ha fun _ hj => nomatch hj
      | unavailable => exact h.accounts.acquire hw ha fun _ hj => nomatch hj
      | broke fault => exact h.accounts.acquire hw ha fun _ hj => nomatch hj
  · cases ha : s.cache.acquire s.generation cell with
    | mk d acquired =>
      cases acquired with
      | compute job => exact List.forall_mem_cons.2 ⟨h.depicts.travels ha, h.travels⟩
      | ready id => exact h.travels
      | unavailable => exact h.travels
      | broke fault => exact h.travels
  · intro other ho hl
    rw [Lacks, Bool.not_eq_true', Bool.eq_false_iff] at hl ⊢
    exact fun hc => hl (Cache.isCached_of_acquire hw hcell ho hc)
  · rw [List.countP_singleton, Lacks]
    rcases hanswer with ⟨hc, hz, -⟩ | ⟨hc, hz, -⟩
    · rw [hc, hz]
      exact Nat.le_refl _
    · rw [hc, hz]
      exact Nat.le_refl _
  · intro since asked ht hroom hnodup
    exact (ht.acquire hw h.ordered h.depicts.isOpen h.depicts.isInfo h.depicts.suited hcell
      (allocatable_of_fits htouches (h.depicts.fits cell hcell))
      (fun limit hl => Nat.lt_of_lt_of_le (by rw [List.length_singleton]; omega) (hroom limit hl))
      (List.nodup_cons.1 hnodup).1).2

theorem Awaits.runPull (h : s.Awaits info picture jobs) (source : Source) (cells : List Rect)
    (hcells : ∀ cell ∈ cells, s.cache.size.IsCell cell ∧
      (cell.intersect info.bounds).isEmpty = false)
    (hwhole : out.IsWhole) (hfor : out.IsFor info) {fuel : Nat} (hfuel : cells.length < fuel) :
    ∃ s' filled jobs', s.runPull source fuel ⟨out, cells, .nothing⟩ jobs =
        (s', .filled filled, jobs') ∧
      s'.Awaits info picture jobs' ∧ s.Went cells s' ∧ filled.IsFor info ∧
      filled.valid = out.valid := by
  induction cells generalizing s out jobs fuel with
  | nil =>
    obtain ⟨fuel, rfl⟩ : ∃ n, fuel = n + 1 := ⟨fuel - 1, by omega⟩
    exact ⟨s, out, jobs, rfl, h, .nil s, hfor, rfl⟩
  | cons cell cells ih =>
    rw [List.length_cons] at hfuel
    obtain ⟨fuel, rfl⟩ : ∃ n, fuel = n + 1 := ⟨fuel - 1, by omega⟩
    obtain ⟨⟨hcell, htouches⟩, hrest⟩ := List.forall_mem_cons.1 hcells
    obtain ⟨s', next, job?, hserve, hawaits, hwent, hwritten⟩ :=
      h.serve hcell htouches hwhole hfor cells
    obtain ⟨s'', filled, jobs', hrun, hawaits', hwent', hfilled, hvalid⟩ := ih hawaits
      (fun other ho => ⟨hwent.setting.size ▸ (hrest other ho).1, (hrest other ho).2⟩)
      hwritten.isWhole (hwritten.isFor hfor) (Nat.lt_of_succ_lt_succ hfuel)
    refine ⟨s'', filled, jobs', ?_, hawaits', hwent.cons hwent' fun other ho => (hrest other ho).1,
      hfilled, hvalid.trans hwritten.valid⟩
    rw [Sink.runPull, hserve]
    cases job? with
    | none => exact hrun
    | some job => exact hrun

/-- **What a pull in the background leaves.** -/
theorem Awaits.pull (h : s.Awaits info picture jobs) (source : Source) {rect : Rect}
    (htouches : (rect.intersect info.bounds).isEmpty = false) (hrect : Fits info rect)
    (hout : out.IsFor info) :
    ∃ s' filled jobs', s.pull source rect out jobs = .ok (s', .filled filled, jobs') ∧
      s'.Awaits info picture jobs' ∧ s.Went ((rect.intersect info.bounds).cells s.size) s' ∧
      filled.IsFor info ∧ filled.valid = rect.intersect info.bounds := by
  obtain ⟨buffer, hopen, hfilling⟩ := s.exists_openPull picture hout htouches hrect
  obtain ⟨s', filled, jobs', hrun, hawaits, hwent, hfilled, hsame⟩ :=
    h.runPull source ((rect.intersect info.bounds).cells s.size)
      (fun cell hc => touches_of_mem htouches hrect hc) hfilling.isWhole hfilling.isFor
      (Nat.lt_succ_of_le (Nat.le_mul_of_pos_left _ Nat.two_pos))
  refine ⟨s', filled, jobs', ?_, hawaits, hwent, hfilled, hsame.trans hfilling.valid_eq⟩
  rw [pull_of_openPull hopen]
  exact congrArg Except.ok hrun

/-! ## Jobs -/

/-- A job brings its tile back with the picture. -/
theorem Awaits.runJob (h : s.Awaits info picture (job :: jobs)) (hdraws : source.Draws picture) :
    s.runJob source job = { s with
        cache := s.cache.complete job.tile ((source job.region).stamped s.generation) true } ∧
      (s.runJob source job).Awaits info picture jobs ∧
      ∀ (since : Nat) (asked : List Rect), s.cache.Touring s.generation since asked →
        (s.runJob source job).cache.Touring s.generation since asked := by
  obtain ⟨htravels, hothers⟩ := List.forall_mem_cons.1 h.travels
  obtain ⟨t, ht, hcomputing, harea⟩ := h.accounts.isOut job List.mem_cons_self
  have hwhole : job.region.IsWhole := htravels.isWhole
    (harea ▸ h.depicts.fits _ (h.depicts.wellFormed.onGrid _ t ht))
  have hrun : s.runJob source job = { s with
      cache := s.cache.complete job.tile ((source job.region).stamped s.generation) true } := by
    rw [Sink.runJob, settle, hdraws.completes _ hwhole]
  have hdepicts := h.depicts.complete hdraws htravels ht harea s.generation
  rw [hrun]
  refine ⟨rfl, ⟨h.mode, hdepicts, h.ordered.complete h.depicts.wellFormed _ _ _, ?_, hothers⟩,
    fun since asked htour => ?_⟩
  · exact h.accounts.of_tiles_ne (fun _ hj => Cache.getElem?_complete_ne hj _ _)
      fun _ => Cache.free_complete_self h.depicts.isOpen
  · exact htour.complete h.depicts.isOpen ht hcomputing (hdraws.isStale_stamped hwhole _)

end TileCache.Sink
