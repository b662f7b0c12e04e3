import TileCache.Proofs.Cache.Filing
import TileCache.Proofs.Sink.Repull
import TileCache.Proofs.Sink.Stability

/-!
# Without a bound the order does not matter

Any number of pulls may be under way in a sink without a bound, in any order, and some of them may
be dropped.  If the sources draw one picture and nothing is invalidated, then what is left when all
computations have ended depends on the cells alone that were requested: one painted tile for each.

There is one proviso.  No computation may be dropped, neither in the queue nor after it has begun.
On a runtime that is not shut down none is.  Without a runtime the computation is a part of the pull
that waits for it, so if such a pull is dropped, then the computation is dropped with it; its tile
is left blank, to be computed again when somebody asks for it (`blank_of_dropped_pull`).

* `Move.Calm`: nothing is dropped but pulls, and nothing invalidated.
* `Gathered` is the invariant, `Gathered.step` and `gathered_run` show it: the cells asked for have
  been started on once each, and are queued or have been called for.
* `Settled` is what follows when no computation is left.
-/

set_option autoImplicit false

namespace TileCache

/-- Does the move drop no computation, and invalidate nothing? -/
def Move.Calm (move : Move) : Prop := move.Spares ∧ ¬ move.Invalidates

namespace Engine

variable {info : ImageInfo} {picture : Picture} {requests calls : List Rect} {e d : Engine}
  {move : Move} {id : Nat}

/-! ## Queued computations -/

/-- The cells of the computations that have not begun. -/
def queued (e : Engine) : List Rect :=
  e.computations.filterMap fun nc => nc.2.queued?.map (·.area)

/-- The cells that a move calls the source for: those of the queued computations that begin. -/
def calledBy (e : Engine) : Move → List Rect
  | .begin id => e.computations.filterMap fun nc =>
    if nc.1 = id then nc.2.queued?.map (·.area) else none
  | .openPull _ _ _ | .advance _ _ | .dropPull _ | .finish _ _ | .drop _ | .invalidate | .detach
  | .shutdown => []

/-- What begins is not queued any more. -/
theorem perm_queued_begin (e : Engine) (id : Nat) :
    (e.calledBy (.begin id) ++ (e.begin id).queued).Perm e.queued := by
  rw [calledBy, queued, queued, begin]
  dsimp only
  induction e.computations with
  | nil => exact List.Perm.nil
  | cons nc rest ih =>
    obtain ⟨n, c⟩ := nc
    obtain ⟨job, beganAt?, client⟩ := c
    by_cases hn : n = id
    · cases beganAt? with
      | none => simpa [hn, Computation.queued?] using ih
      | some beganAt => simpa [hn, Computation.queued?] using ih
    · cases beganAt? with
      | none =>
        simpa [hn, Computation.queued?] using List.perm_middle.trans (ih.cons job.area)
      | some beganAt => simpa [hn, Computation.queued?] using ih

/-- What has begun is not queued when it ends. -/
theorem queued_forget {c : Computation} (hf : e.computations.lookup id = some c)
    (hb : c.queued? = none) : (e.forget id).queued = e.queued := by
  obtain ⟨l₁, l₂, hl, he⟩ := exists_split_of_lookup hf
  rw [queued, queued, hl, show (e.forget id).computations = l₁ ++ l₂ from he, List.filterMap_append, List.filterMap_append, List.filterMap_cons]
  simp [hb]

theorem queued_carryOn {client : Client} (h : ¬ (client = .nobody ∧ !e.hasRuntime)) (id : Nat)
    (r : Sink × Served × Option Job) :
    (e.carryOn id client r).1.queued = (r.2.2.map (·.area)).toList ++ e.queued := by
  obtain ⟨s, served, job?⟩ := r
  have take : ((takeJob { e with sink := s } client job?).1).queued =
      (job?.map (·.area)).toList ++ e.queued := by
    cases job? with
    | none => rfl
    | some job =>
      rw [takeJob, enqueue, if_neg h]
      rfl
  cases served <;> exact take

/-! ## One move -/

/-- What calm moves lead to in a sink without a bound, whatever is asked for. -/
structure Undisturbed (info : ImageInfo) (picture : Picture) (e : Engine) : Prop where
  sound : e.Sound
  depicts : e.sink.cache.Depicts info picture
  unbounded : e.sink.cache.budget.limit? = none
  travels : ∀ nc ∈ e.computations, Travels info nc.2.job
  present : ∀ nc ∈ e.computations, ∀ beganAt, nc.2.beganAt? = some beganAt →
    beganAt = e.sink.generation
  client : ∀ id, ¬ (e.clientOf id = .nobody ∧ !e.hasRuntime)

/-- All tiles are valid or in computation, they stand on the cells of `requests`, and the source has
been called for each of these that is not queued. -/
structure Gathered (info : ImageInfo) (requests calls : List Rect) (e : Engine) : Prop where
  current : e.sink.cache.IsCurrent e.sink.generation
  filed : e.sink.cache.Filed info requests
  called : (calls ++ e.queued).Perm e.sink.cache.areas

/-- A move that asks for nothing, and calls no source. -/
theorem Gathered.of_same (h : e.Gathered info requests calls) (hsink : d.sink.cache = e.sink.cache)
    (hgeneration : d.sink.generation = e.sink.generation) (hqueued : d.queued = e.queued) :
    d.Gathered info (requests ++ []) (calls ++ []) where
  current := by
    rw [hsink, hgeneration]
    exact h.current
  filed := by
    rw [hsink, List.append_nil]
    exact h.filed
  called := by
    rw [hsink, hqueued, List.append_nil]
    exact h.called

theorem Gathered.advance (hu : e.Undisturbed info picture) (h : e.Gathered info requests calls)
    (id : Nat) :
    (e.advance id 0).1.Gathered info (requests ++ e.requestedBy (.advance id 0)) (calls ++ []) := by
  have hcalm : ¬ Move.Invalidates (.advance id 0) := Nat.lt_irrefl 0
  have hgeneration : (e.advance id 0).1.sink.generation = e.sink.generation :=
    generation_step hcalm
  rw [requestedBy]
  cases hf : e.pulls.lookup id with
  | none =>
    rw [Engine.advance, hf]
    exact h.of_same rfl rfl rfl
  | some pull =>
    rw [Engine.advance, hf] at hgeneration ⊢
    dsimp only at hgeneration ⊢
    rw [Option.bind_some]
    by_cases hdone : pull.isDone = true
    · rw [if_pos hdone, Pull.next?_of_isDone hdone]
      exact h.of_same rfl rfl rfl
    · rw [if_neg hdone] at hgeneration ⊢
      have hasks := (Sink.serving e.sink pull 0).asks
      have hqueued := queued_carryOn (e := e.dropPull id) (hu.client id) id (e.sink.serve pull 0)
      have hsink := sink_carryOn (e.dropPull id) id (e.clientOf id) (e.sink.serve pull 0)
      rcases hasks with ⟨hnext, hcache, hjob⟩ | ⟨cell, acquired, hnext, hacq, hjob⟩
      · rw [hnext]
        refine h.of_same (by rw [hsink, hcache]) hgeneration ?_
        rw [hqueued, hjob]
        rfl
      · have hcell := hu.sound.onGrid _ (mem_of_lookup hf) cell (.inl (Pull.mem_of_next? hnext))
        have hcurrent := h.current.acquire hu.sound.cache cell
        have hfiles := Cache.files_acquire hu.sound.cache hu.depicts.isOpen hu.depicts.isInfo
          hu.unbounded h.current hcell
        rw [hacq] at hcurrent hfiles
        dsimp only at hcurrent hfiles
        rw [← hjob] at hfiles
        rw [hnext]
        refine ⟨?_, ?_, ?_⟩
        · rw [hgeneration, hsink]
          exact hcurrent
        · rw [hsink]
          exact h.filed.request hfiles
        · rw [hsink, hqueued, List.append_nil]
          generalize (e.sink.serve pull 0).2.2 = job? at hfiles ⊢
          generalize (e.sink.serve pull 0).1.cache = c at hfiles ⊢
          cases hfiles with
          | kept _ areas _ =>
            rw [areas]
            exact h.called
          | started _ _ area areas _ =>
            rw [areas, ← area]
            exact List.perm_middle.trans ((h.called.cons _).trans
              (List.perm_append_singleton _ _).symm)

theorem Gathered.finish (hu : e.Undisturbed info picture) (h : e.Gathered info requests calls)
    {source : Source} (hdraws : source.Draws picture) (id : Nat) :
    (e.step (.finish id source)).Gathered info (requests ++ []) (calls ++ []) := by
  cases hf : e.computations.lookup id with
  | none =>
    rw [step_finish_of_none source hf]
    exact h.of_same rfl rfl rfl
  | some c =>
    cases hb : c.beganAt? with
    | none =>
      rw [step_finish_of_queued source hf hb]
      exact h.of_same rfl rfl rfl
    | some beganAt =>
      have hm := mem_of_lookup hf
      obtain rfl := hu.present _ hm beganAt hb
      have hwhole := hu.sound.isWhole_job hu.depicts hf (hu.travels _ hm)
      have hqueued : (e.forget id).queued = e.queued := by
        refine queued_forget hf ?_
        rw [Computation.queued?, hb]
      obtain ⟨notified, painted, hstep⟩ := step_finish_of_draws hdraws hf hb hwhole
      rw [hstep, wake_eq, List.append_nil, List.append_nil]
      refine ⟨h.current.complete (hdraws.isStale_stamped hwhole _) _,
        h.filed.congr (Cache.areas_complete _ _ _ _)
          (congrArg Counters.computes (Cache.counters_complete _ _ _)), ?_⟩
      show (calls ++ (e.forget id).queued).Perm (e.sink.cache.complete _ _ _).areas
      rw [hqueued, Cache.areas_complete]
      exact h.called

/-- **A calm move starts on each cell that is new, once, and on nothing else.** -/
theorem Gathered.step (hu : e.Undisturbed info picture) (h : e.Gathered info requests calls)
    (hm : move.Calm) (hdraws : ∀ n source, move = .finish n source → source.Draws picture)
    (hopen : (e.step move).sink.cache.isOpen = true) :
    (e.step move).Gathered info (requests ++ e.requestedBy move) (calls ++ e.calledBy move) := by
  cases move with
  | openPull rect out hr =>
    cases ho : e.openPull rect out with
    | error error =>
      rw [step_openPull_of_error hr ho]
      exact h.of_same rfl rfl rfl
    | ok dn =>
      obtain ⟨out', -, hd⟩ := openPull_eq_ok ho
      rw [step_openPull_of_ok hr ho, hd]
      exact h.of_same rfl rfl rfl
  | advance id amid =>
    cases amid with
    | zero => exact h.advance hu id
    | succ amid => exact absurd (Nat.succ_pos amid) hm.2
  | dropPull id => exact h.of_same rfl rfl rfl
  | begin id =>
    refine ⟨h.current, ?_, ?_⟩
    · rw [requestedBy, List.append_nil]
      exact h.filed
    · rw [List.append_assoc]
      exact ((perm_queued_begin e id).append_left calls).trans h.called
  | finish id source => exact h.finish hu (hdraws id source rfl) id
  | detach =>
    have hsink : e.sink.detach.cache = e.sink.cache ∧
        e.sink.detach.generation = e.sink.generation := by
      change e.sink.detach.cache.isOpen = true at hopen
      rw [Sink.detach] at hopen ⊢
      split at hopen
      · exact ⟨rfl, rfl⟩
      · cases hopen
      · exact ⟨rfl, rfl⟩
    exact h.of_same hsink.1 hsink.2 rfl
  | invalidate => exact absurd trivial hm.2
  | drop _ => cases hm.1
  | shutdown => cases hm.1

/-! ## At rest -/

/-- What the tiles hold: their cells, each with its bytes. -/
def contents (e : Engine) : List (Rect × Option ByteArray) :=
  e.sink.cache.tiles.toList.map fun t => (t.area, t.region?.map (·.bytes))

/-- What is left when all computations have ended: one valid tile with the picture for each cell
that was asked for and can have a buffer, and no other tile.  There has been one call of the source
for each. -/
structure Settled (info : ImageInfo) (picture : Picture) (requests calls : List Rect) (e : Engine) :
    Prop where
  areas : e.sink.cache.areas.Perm (requests.filter (Allocatable info)).dedup
  painted : ∀ (id : Nat) (t : Tile), e.sink.cache.tiles[id]? = some t →
    t.isValid e.sink.generation = true ∧ ∃ region, t.region? = some region ∧
      Frames info t.area region ∧ region.IsWhole ∧ region.Shows picture
  calls : calls.Perm e.sink.cache.areas
  tiles : e.sink.stats.tiles = (requests.filter (Allocatable info)).dedup.length
  computes : e.sink.stats.counters.computes = e.sink.stats.tiles

theorem Gathered.settled (hu : e.Undisturbed info picture) (h : e.Gathered info requests calls)
    (hidle : e.sink.cache.IsIdle) (hdone : e.computations = []) :
    e.Settled info picture requests calls where
  areas := h.filed.areas_perm hu.sound.cache.toIndexed
  painted := by
    intro id t ht
    have hv := (h.current id t ht).resolve_left (hidle id t ht)
    exact ⟨hv, hu.depicts.exists_region ht hv⟩
  calls := by
    have hcalled := h.called
    rw [queued, hdone, List.filterMap_nil, List.append_nil] at hcalled
    exact hcalled
  tiles := by
    rw [← (h.filed.areas_perm hu.sound.cache.toIndexed).length_eq, Cache.length_areas]
    rfl
  computes := h.filed.computes

namespace Settled

/-- A cell that was asked for has a tile. -/
theorem exists_tile (h : e.Settled info picture requests calls) {cell : Rect}
    (hm : cell ∈ requests) (hok : Allocatable info cell = true) :
    ∃ (id : Nat) (t : Tile), e.sink.cache.tiles[id]? = some t ∧ t.area = cell ∧
      t.isValid e.sink.generation = true := by
  have hmem : cell ∈ e.sink.cache.areas :=
    h.areas.mem_iff.2 (List.mem_dedup.2 (List.mem_filter.2 ⟨hm, hok⟩))
  obtain ⟨id, t, ht, ha⟩ := Cache.mem_areas_iff.1 hmem
  exact ⟨id, t, ht, ha, (h.painted id t ht).1⟩

theorem nodup_contents (h : e.Settled info picture requests calls) : e.contents.Nodup := by
  refine List.Nodup.of_map Prod.fst ?_
  rw [contents, List.map_map]
  exact h.areas.nodup_iff.2 (List.nodup_dedup _)

/-- What one sink holds, another holds that was asked for the same cells. -/
theorem contents_subset {requests' calls' : List Rect} (h : e.Settled info picture requests calls)
    (h' : d.Settled info picture requests' calls')
    (hsame : ∀ cell, cell ∈ requests → cell ∈ requests') : e.contents ⊆ d.contents := by
  intro entry hentry
  obtain ⟨t, ht, rfl⟩ := List.mem_map.1 hentry
  obtain ⟨id, ht⟩ := List.mem_iff_getElem?.1 ht
  rw [Array.getElem?_toList] at ht
  obtain ⟨-, region, hr, hframes, hwhole, hshows⟩ := h.painted id t ht
  have hmem : t.area ∈ requests.filter (Allocatable info) :=
    List.mem_dedup.1 (h.areas.mem_iff.1 (Cache.mem_areas_iff.2 ⟨id, t, ht, rfl⟩))
  obtain ⟨hasked, hok⟩ := List.mem_filter.1 hmem
  obtain ⟨id', t', ht', ha, -⟩ := h'.exists_tile (hsame _ hasked) hok
  obtain ⟨-, region', hr', hframes', hwhole', hshows'⟩ := h'.painted id' t' ht'
  have hvalid : region.valid = region'.valid := by rw [hframes.valid, hframes'.valid, ha]
  have hbytes : region.bytes = region'.bytes :=
    Region.bytes_eq_of_shows hwhole' hwhole hvalid
      (hframes.isFor.2.trans hframes'.isFor.2.symm) hshows' hshows
  refine List.mem_map.2 ⟨t', List.mem_iff_getElem?.2 ⟨id', ?_⟩, ?_⟩
  · rw [Array.getElem?_toList]
    exact ht'
  · rw [ha, hr, hr', Option.map_some, Option.map_some, hbytes]

/-- **The contents depend on the cells alone that were asked for.** -/
theorem contents_perm {requests' calls' : List Rect} (h : e.Settled info picture requests calls)
    (h' : d.Settled info picture requests' calls')
    (hsame : ∀ cell, cell ∈ requests ↔ cell ∈ requests') : e.contents.Perm d.contents :=
  (List.perm_ext_iff_of_nodup h.nodup_contents h'.nodup_contents).2 fun _ =>
    ⟨fun hm => h.contents_subset h' (fun cell => (hsame cell).1) hm,
      fun hm => h'.contents_subset h (fun cell => (hsame cell).2) hm⟩

/-- Later, a pull of cells that were asked for finds all of them. -/
theorem pull (h : e.Settled info picture requests calls) (hu : e.Undisturbed info picture)
    {more : List Move} (hm : ∀ move ∈ more, ¬ move.Invalidates)
    (hdepicts : (e.run more).sink.cache.Depicts info picture) {rect : Rect}
    (htouches : (rect.intersect info.bounds).isEmpty = false) (hrect : Fits info rect)
    (hasked : ∀ cell ∈ (rect.intersect info.bounds).cells e.sink.size, cell ∈ requests)
    {out : Region} (hout : out.IsFor info) (source : Source) :
    ∃ after filled, (e.run more).sink.pull source rect out [] = .ok (after, .filled filled, []) ∧
      (e.run more).sink.Hits ((rect.intersect info.bounds).cells e.sink.size).length after ∧
      Sink.Filling info picture (rect.intersect info.bounds) [] filled := by
  have hsize : (e.run more).sink.size = e.sink.size := (SameBase.run hu.sound more).size
  rw [← hsize] at hasked ⊢
  refine Sink.pull_of_cached source hdepicts htouches hrect (fun cell hc => ?_) hout []
  obtain ⟨hcell, htouch⟩ := Sink.touches_of_mem htouches hrect hc
  have hok := allocatable_of_fits htouch (hdepicts.fits cell hcell)
  obtain ⟨id, t, ht, ha, hv⟩ := h.exists_tile (hasked cell hc) hok
  obtain ⟨n, hn, hv'⟩ := stable_moves hu.sound hu.unbounded hm hdepicts.isOpen ht hv
  exact (hdepicts.wellFormed.isCached_iff hcell).2 ⟨id, _, hn, ha, hv'⟩

end Settled

/-! ## Runs -/

section

variable {config : Config} {hasRuntime withMask : Bool} {s : Sink} {moves : List Move}

theorem undisturbed_run (hs : Sink.create info config hasRuntime withMask = .ok s)
    (hmax : config.maxTiles = -1) (hfits : ∀ cell, s.size.IsCell cell → Fits info cell)
    (hd : AllDraw picture moves) (hm : ∀ move ∈ moves, move.Calm)
    (hopen : ((ofSink s hasRuntime).run moves).sink.cache.isOpen = true) :
    ((ofSink s hasRuntime).run moves).Undisturbed info picture where
  sound := (sound_run hs moves).1
  depicts := depicts_run hs hfits hd hopen
  unbounded := (limit?_run hs moves).trans (if_pos hmax)
  travels := (displayed_run hs hd).computations
  present := by
    intro nc hnc beganAt hb
    obtain ⟨before, between, rfl, -, rfl⟩ := (traced_run hs moves).computations nc hnc beganAt hb
    rw [generation_run fun move hmove => (hm move hmove).2]
    exact generation_run fun move hmove => (hm move (List.mem_append_left _ hmove)).2
  client := clientOf_run hs fun move hmove => (hm move hmove).1

theorem gathered_run (hs : Sink.create info config hasRuntime withMask = .ok s)
    (hmax : config.maxTiles = -1) (hfits : ∀ cell, s.size.IsCell cell → Fits info cell)
    (hd : AllDraw picture moves) (hm : ∀ move ∈ moves, move.Calm)
    (hopen : ((ofSink s hasRuntime).run moves).sink.cache.isOpen = true) :
    ((ofSink s hasRuntime).run moves).Gathered info
      (collect requestedBy (ofSink s hasRuntime) moves)
      (collect calledBy (ofSink s hasRuntime) moves) := by
  induction moves using List.reverseRecOn with
  | nil =>
    obtain ⟨size, budget, -, -, -, hcache⟩ := create_eq_ok hs
    show (ofSink s hasRuntime).Gathered info [] []
    have hcache : (ofSink s hasRuntime).sink.cache = .create info size budget := hcache
    refine ⟨?_, ?_, ?_⟩
    · rw [hcache]
      exact fun _ _ ht => nomatch ht
    · rw [hcache]
      exact ⟨fun _ => iff_of_false List.not_mem_nil fun hm => List.not_mem_nil hm.1, rfl⟩
    · rw [hcache]
      exact List.Perm.nil
  | append_singleton moves move ih =>
    have hbefore := fun other ho => hm other (List.mem_append_left _ ho)
    rw [run_concat] at hopen ⊢
    rw [collect_concat, collect_concat]
    have hopen' := isOpen_of_step (sound_run hs moves).1 hopen
    exact (ih hd.of_append hbefore hopen').step
      (undisturbed_run hs hmax hfits hd.of_append hbefore hopen')
      (hm move (List.mem_append_right _ List.mem_cons_self))
      (fun n source hn => hd n source (hn ▸ List.mem_append_right _ List.mem_cons_self)) hopen

theorem settles_run (hs : Sink.create info config hasRuntime withMask = .ok s)
    (hmax : config.maxTiles = -1) (hfits : ∀ cell, s.size.IsCell cell → Fits info cell)
    (hd : AllDraw picture moves) (hm : ∀ move ∈ moves, move.Calm)
    (hopen : ((ofSink s hasRuntime).run moves).sink.cache.isOpen = true)
    (hdone : ((ofSink s hasRuntime).run moves).computations = []) :
    ((ofSink s hasRuntime).run moves).Settled info picture
      (collect requestedBy (ofSink s hasRuntime) moves)
      (collect calledBy (ofSink s hasRuntime) moves) := by
  have haccounted := accounted_run hs moves
  rw [lost_eq_nil hs fun move hmove => (hm move hmove).1] at haccounted
  exact (gathered_run hs hmax hfits hd hm hopen).settled
    (undisturbed_run hs hmax hfits hd hm hopen) (haccounted.isIdle hopen hdone) hdone

/-- **The order does not matter.**  Let any number of pulls be under way in a sink without a bound,
in any order, over sources that draw one picture, and let some of them be dropped; but let nothing
be invalidated, and no computation be dropped.  When all computations have ended, the sink has one
valid tile with the picture for each cell that was asked for, and no other, and one call of the
source has been made for each.  From then on, whatever else goes on, a pull of cells that were asked
for finds all of them, has nothing computed and delivers the picture.  And any other such run in
which the same cells were asked for leaves the same cells with the same bytes. -/
theorem settled_run (hs : Sink.create info config hasRuntime withMask = .ok s)
    (hmax : config.maxTiles = -1) (hfits : ∀ cell, s.size.IsCell cell → Fits info cell)
    (hd : AllDraw picture moves) (hm : ∀ move ∈ moves, move.Calm)
    (hopen : ((ofSink s hasRuntime).run moves).sink.cache.isOpen = true)
    (hdone : ((ofSink s hasRuntime).run moves).computations = []) :
    let e := (ofSink s hasRuntime).run moves
    let requests := collect requestedBy (ofSink s hasRuntime) moves
    e.Settled info picture requests (collect calledBy (ofSink s hasRuntime) moves) ∧
      (∀ more : List Move, AllDraw picture more → (∀ move ∈ more, ¬ move.Invalidates) →
        (e.run more).sink.cache.isOpen = true → ∀ (rect : Rect) (source : Source) (out : Region),
        (rect.intersect info.bounds).isEmpty = false → Fits info rect → out.IsFor info →
        (∀ cell ∈ (rect.intersect info.bounds).cells s.size, cell ∈ requests) →
        let before := (e.run more).sink
        ∃ after filled, before.pull source rect out [] = .ok (after, .filled filled, []) ∧
          after.stats.counters = { before.stats.counters with
            hits := before.stats.counters.hits +
              ((rect.intersect info.bounds).cells s.size).length } ∧
          after.stats.zeroFilled = before.stats.zeroFilled ∧
          filled.valid = rect.intersect info.bounds ∧ filled.Shows picture) ∧
      ∀ others : List Move, AllDraw picture others → (∀ move ∈ others, move.Calm) →
        ((ofSink s hasRuntime).run others).sink.cache.isOpen = true →
        ((ofSink s hasRuntime).run others).computations = [] →
        (∀ cell, cell ∈ requests ↔ cell ∈ collect requestedBy (ofSink s hasRuntime) others) →
        e.contents.Perm ((ofSink s hasRuntime).run others).contents := by
  intro e requests
  have hsettled : e.Settled info picture requests _ := settles_run hs hmax hfits hd hm hopen hdone
  refine ⟨hsettled, ?_, fun others hd' hm' hopen' hdone' hsame =>
    hsettled.contents_perm (settles_run hs hmax hfits hd' hm' hopen' hdone') hsame⟩
  intro more hd' hm' hopen' rect source out htouches hrect hout hasked before
  have hu := undisturbed_run hs hmax hfits hd hm hopen
  have hsize : e.sink.size = s.size := (sound_run hs moves).2.size
  have hdepicts : before.cache.Depicts info picture := by
    have hrun : e.run more = (ofSink s hasRuntime).run (moves ++ more) := (run_append _ _ _).symm
    rw [hrun] at hopen'
    show (e.run more).sink.cache.Depicts info picture
    rw [hrun]
    exact depicts_run hs hfits (hd.append hd') hopen'
  rw [← hsize] at hasked ⊢
  obtain ⟨after, filled, hpull, hhits, hfilled⟩ :=
    hsettled.pull hu hm' hdepicts htouches hrect hasked hout source
  refine ⟨after, filled, hpull, hhits.counters, ?_, hfilled.valid_eq, hfilled.shows⟩
  rw [hhits.same]
  rfl

/-- Two cells.  Two pulls ask for both, and the one that came second is dropped while the second
cell is computed on its behalf.  One pull alone would have left the same. -/
theorem settled_run_narrow :
    ∃ s, Sink.create ⟨2, 1, 1, .uchar⟩ (.ofTileSize 1 1) true false = .ok s ∧
      let e := (ofSink s true).run [.openPull ⟨0, 0, 2, 1⟩ (.empty ⟨2, 1, 1, .uchar⟩) ⟨_, rfl, rfl⟩,
        .openPull ⟨1, 0, 1, 1⟩ (.empty ⟨2, 1, 1, .uchar⟩) ⟨_, rfl, rfl⟩, .advance 1 0, .begin 2,
        .advance 0 0, .dropPull 1, .begin 3, .finish 3 .pattern, .finish 2 .pattern]
      e.sink.stats.counters.computes = 2 ∧
        (∃ after filled, e.sink.pull .pattern ⟨0, 0, 2, 1⟩ (.empty ⟨2, 1, 1, .uchar⟩) [] =
            .ok (after, .filled filled, []) ∧ filled.Shows Pattern.picture) ∧
        e.contents.Perm ((ofSink s true).run
          [.openPull ⟨0, 0, 2, 1⟩ (.empty ⟨2, 1, 1, .uchar⟩) ⟨_, rfl, rfl⟩, .advance 0 0, .begin 1,
            .finish 1 .pattern, .advance 0 0, .advance 0 0, .begin 2,
            .finish 2 .pattern]).contents := by
  refine ⟨_, rfl, ?_⟩
  have hfits : ∀ cell, Fits ⟨2, 1, 1, .uchar⟩ cell := fits_of_bounds (by decide)
  obtain ⟨hsettled, hlater, hothers⟩ := @settled_run ⟨2, 1, 1, .uchar⟩ Pattern.picture
    (.ofTileSize 1 1) true false _
    [.openPull ⟨0, 0, 2, 1⟩ (.empty ⟨2, 1, 1, .uchar⟩) ⟨_, rfl, rfl⟩,
      .openPull ⟨1, 0, 1, 1⟩ (.empty ⟨2, 1, 1, .uchar⟩) ⟨_, rfl, rfl⟩, .advance 1 0, .begin 2,
      .advance 0 0, .dropPull 1, .begin 3, .finish 3 .pattern, .finish 2 .pattern]
    rfl rfl (fun cell _ => hfits cell) (by simp [draws_pattern])
    (by simp [Move.Calm, Move.Spares, Move.Invalidates]) rfl rfl
  refine ⟨hsettled.computes.trans rfl, ?_, ?_⟩
  · obtain ⟨after, filled, hpull, -, -, -, hshows⟩ := hlater [] allDraw_nil (by simp) rfl
      ⟨0, 0, 2, 1⟩ .pattern (.empty ⟨2, 1, 1, .uchar⟩) rfl (hfits _) ⟨rfl, rfl⟩ (by decide)
    exact ⟨after, filled, hpull, hshows⟩
  · exact hothers _ (by simp [draws_pattern])
      (by simp [Move.Calm, Move.Spares, Move.Invalidates]) rfl rfl fun cell =>
        (List.Perm.swap (⟨0, 0, 1, 1⟩ : Rect) ⟨1, 0, 1, 1⟩ []).mem_iff

/-- Without a runtime a pull runs the computation that it waits for.  It is dropped in the middle of
that, and though nothing is under way any more, the tile of its cell is blank. -/
theorem blank_of_dropped_pull :
    ∃ s, Sink.create ⟨1, 1, 1, .uchar⟩ (.ofTileSize 1 1) false false = .ok s ∧
      let moves := [.openPull ⟨0, 0, 1, 1⟩ (.empty ⟨1, 1, 1, .uchar⟩) ⟨_, rfl, rfl⟩, .advance 0 0,
        .begin 1, .dropPull 0, .drop 1]
      let e := (ofSink s false).run moves
      e.sink.cache.isOpen = true ∧ e.computations.length = 0 ∧ e.pulls.length = 0 ∧
        collect requestedBy (ofSink s false) moves = [⟨0, 0, 1, 1⟩] ∧
        e.sink.tiles.map (·.state) = ["Blank"] ∧ e.sink.stats.counters.computes = 1 :=
  ⟨_, rfl, rfl, rfl, rfl, rfl, rfl, rfl⟩

end

end Engine

end TileCache
