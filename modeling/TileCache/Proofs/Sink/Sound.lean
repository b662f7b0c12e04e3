import TileCache.Proofs.Cache.Lends
import TileCache.Proofs.Cache.Order
import TileCache.Proofs.Sink.Change

/-!
# What holds throughout a run

`Engine.Sound` is the invariant of an engine: its cache is well-formed and in order, the jobs that
are out agree with the tiles that are being computed, and pulls ask for cells of the grid only.

* `Sound.change`: every elementary change keeps it, hence every move (`Sound.step`) and every run
  (`Sound.run`).
* `SameBase.run`: what a sink is given when it is made stays the same.
* `Sound.forall_pulls_step`: what has to be shown of pulls to know it of all of them.
* `sound_run`: both for the runs of a new sink.
-/

set_option autoImplicit false

namespace TileCache

/-- How many tiles a sink may have.  One is always allowed. -/
def Config.capacity (config : Config) : Option Nat :=
  if config.maxTiles = -1 then none else some (max 1 config.maxTiles.toNat)

theorem limit?_of_validate {config : Config} {size : TileSize} {budget : Budget}
    (h : config.validate = .ok (size, budget)) : budget.limit? = config.capacity := by
  rw [Config.validate] at h
  split at h
  · cases h
  · rw [Budget.ofCount] at h
    rw [Config.capacity]
    split at h
    · rename_i hm
      obtain ⟨-, rfl⟩ := Prod.mk.inj (Except.ok.inj h)
      exact (if_pos hm).symm
    · rename_i hm
      split at h
      · cases h
      · obtain ⟨-, rfl⟩ := Prod.mk.inj (Except.ok.inj h)
        exact (if_neg hm).symm

namespace Engine

variable {e d f : Engine} {move : Move} {id : Nat}

/-- The invariant of an engine. -/
structure Sound (e : Engine) : Prop where
  cache : e.sink.cache.WellFormed
  ordered : e.sink.cache.Ordered
  lends : e.sink.cache.isOpen = true → e.sink.cache.Lends e.jobs
  onGrid : ∀ np ∈ e.pulls, ∀ cell, Sink.IsDue np.2 cell → e.sink.cache.size.IsCell cell

/-! ## Pulls -/

/-- A region for some image has its origin in the quarter of the plane where cells have one. -/
theorem rounds_of_buffer {out out' : Region} {rect : Rect} (hr : ∃ info, out.IsFor info)
    (hb : out.buffer rect = .ok out') (size : TileSize) :
    TileSize.Rounds size.width out'.valid.left ∧ TileSize.Rounds size.height out'.valid.top := by
  obtain ⟨info, hbounds, -⟩ := hr
  obtain ⟨-, -, rfl⟩ := Region.buffer_eq_ok_iff.1 hb
  have hl : 0 ≤ (rect.intersect out.bounds).left.val := by
    show 0 ≤ (max rect.left out.bounds.left).val
    rw [hbounds, Coord.val_max]
    exact Int.le_max_right _ _
  have ht : 0 ≤ (rect.intersect out.bounds).top.val := by
    show 0 ≤ (max rect.top out.bounds.top).val
    rw [hbounds, Coord.val_max]
    exact Int.le_max_right _ _
  exact ⟨TileSize.rounds_of_nonneg size.width_pos hl, TileSize.rounds_of_nonneg size.height_pos ht⟩

theorem isCell_of_buffer {out out' : Region} {rect : Rect} (hr : ∃ info, out.IsFor info)
    (hb : out.buffer rect = .ok out') {size : TileSize} {cell : Rect}
    (hcell : cell ∈ out'.valid.cells size) : size.IsCell cell := by
  obtain ⟨hl, ht⟩ := rounds_of_buffer hr hb size
  exact Rect.isCell_of_mem_cells hl ht hcell

/-- What a step of a pull leaves of the cache. -/
theorem Sound.asks (h : e.Sound) {pull : Pull}
    (hg : ∀ cell, Sink.IsDue pull cell → e.sink.cache.size.IsCell cell) {c : Cache}
    {job? : Option Job} (ha : e.sink.Asks pull c job?) :
    c.WellFormed ∧ c.Ordered ∧ e.sink.cache.SameSetting c ∧
      (c.isOpen = true → c.Lends (job?.toList ++ e.jobs)) := by
  rcases ha with ⟨-, rfl, rfl⟩ | ⟨cell, acquired, hnext, ha, rfl⟩
  · exact ⟨h.cache, h.ordered, ⟨rfl, rfl, rfl, rfl⟩, h.lends⟩
  · have hcell := hg cell (.inl (Pull.mem_of_next? hnext))
    have hc : c = (e.sink.cache.acquire e.sink.generation cell).1 := by rw [ha]
    have hset := Cache.sameSetting_acquire h.cache e.sink.generation cell
    refine ⟨?_, ?_, hc ▸ hset, fun ho => ?_⟩
    · rw [hc]
      exact h.cache.acquire _ hcell
    · rw [hc]
      exact h.ordered.acquire h.cache _ hcell
    · have hl := h.lends (by rw [← hset.isOpen, ← hc]; exact ho)
      cases acquired with
      | compute job => exact hl.acquire_compute h.cache hcell ha
      | ready _ => exact hc ▸ hl.acquire h.cache _ _
      | unavailable => exact hc ▸ hl.acquire h.cache _ _
      | broke _ => exact hc ▸ hl.acquire h.cache _ _

theorem Sound.served (h : e.Sound) {amid : Nat} {pull : Pull} {r : Sink × Served × Option Job}
    (hg : ∀ cell, Sink.IsDue pull cell → e.sink.cache.size.IsCell cell)
    (hs : e.sink.Serving amid pull r) (id : Nat) (client : Client) :
    (e.carryOn id client r).1.Sound := by
  obtain ⟨hw, ho, hset, hl⟩ := h.asks hg hs.asks
  have hsink := sink_carryOn e id client r
  refine ⟨hsink ▸ hw, hsink ▸ ho, fun hopen => ?_, fun np hnp cell hcell => ?_⟩
  · rw [hsink] at hopen ⊢
    have hlends := hl hopen
    rcases computations_carryOn e id client r with hc | ⟨job, hj, hc⟩
    · -- a job that is lost leaves the others as they were
      rw [jobs, hc]
      cases hjob : r.2.2 with
      | none => rwa [hjob] at hlends
      | some job =>
        rw [hjob] at hlends
        exact hlends.tail
    · rw [hj] at hlends
      rw [jobs, hc]
      exact hlends
  · rw [hsink, hset.size]
    rcases mem_pulls_carryOn hnp with hm | hwent
    · exact h.onGrid np hm cell hcell
    · obtain ⟨s, served, job?⟩ := r
      dsimp only at hwent
      subst hwent
      exact hg cell (hs.isDue_of_went hcell)

/-! ## Computations -/

theorem Sound.wake (h : e.Sound) (client : Client) (painted : Bool) :
    (e.wake client painted).Sound := by
  have hgrid : ∀ np ∈ (e.wake client painted).pulls, ∀ cell, Sink.IsDue np.2 cell →
      e.sink.cache.size.IsCell cell := by
    intro np hnp cell hcell
    obtain ⟨mp, hmp, hsame | hwoken⟩ := mem_pulls_wake hnp
    · exact h.onGrid mp hmp cell (hsame ▸ hcell)
    · rw [hwoken, Sink.isDue_wake] at hcell
      exact h.onGrid mp hmp cell hcell
  rw [wake_eq]
  exact ⟨h.cache, h.ordered, h.lends, hgrid⟩

/-- A computation is forgotten in a cache in which at most its own tile has changed. -/
theorem Sound.comeBack (h : e.Sound) {c : Computation} (hf : e.computations.lookup id = some c)
    {s : Sink} (hw : s.cache.WellFormed) (ho : s.cache.Ordered)
    (hset : e.sink.cache.SameSetting s.cache)
    (ht : ∀ j : Nat, j ≠ c.job.tile → s.cache.tiles[j]? = e.sink.cache.tiles[j]?)
    (notified : List Rect) : Sound { e.forget id with sink := s, notified } where
  cache := hw
  ordered := ho
  lends := fun hopen =>
    ((h.lends (by rw [← hset.isOpen]; exact hopen)).perm (perm_forget hf)).of_tiles_ne ht
  onGrid := by
    rw [hset.size]
    exact h.onGrid

theorem Sound.settled (h : e.Sound) {c : Computation} (hf : e.computations.lookup id = some c)
    (beganAt : Nat) (answer : Answer) (notified : List Rect) :
    Sound { e.forget id with sink := (e.sink.settle c.job beganAt answer).1, notified } := by
  rcases settle_eq e.sink c.job beganAt answer with ⟨succeeded, -, hs⟩ | ⟨-, hs⟩
  · rw [hs]
    exact h.comeBack hf (h.cache.complete _ _ _) (h.ordered.complete h.cache _ _ _)
      (Cache.sameSetting_complete _ _ _ _) (fun j hj => Cache.getElem?_complete_ne hj _ _) _
  · rw [hs]
    exact h.comeBack hf (h.cache.abandon _ _) (h.ordered.abandon _ _)
      (Cache.sameSetting_abandon _ _ _) (fun j hj => Cache.getElem?_abandon_ne hj _) _

/-! ## Runs -/

/-- **Every elementary change keeps an engine sound.** -/
theorem Sound.change (h : e.Sound) (hc : Change move e d) : d.Sound := by
  cases hc with
  | opened isRegion buffered =>
    exact ⟨h.cache, h.ordered, h.lends, List.forall_mem_cons.2 ⟨fun cell hcell =>
      isCell_of_buffer isRegion buffered (Sink.isDue_of_nothing.1 hcell), h.onGrid⟩⟩
  | left id =>
    exact ⟨h.cache, h.ordered, h.lends, fun np hnp => h.onGrid np (mem_pulls_dropPull hnp)⟩
  | @served id _ pull r _ found serving =>
    have hdrop : (e.dropPull id).Sound :=
      ⟨h.cache, h.ordered, h.lends, fun np hnp => h.onGrid np (mem_pulls_dropPull hnp)⟩
    exact hdrop.served (h.onGrid _ (mem_of_lookup found)) serving id _
  | began _ =>
    exact ⟨h.cache, h.ordered, fun ho => jobs_begin e _ ▸ h.lends ho, h.onGrid⟩
  | finished _ found _ => exact (h.settled found _ _ _).wake _ _
  | lost found _ =>
    have hdone := h.comeBack found h.cache h.ordered ⟨rfl, rfl, rfl, rfl⟩ (fun _ _ => rfl)
      e.notified
    exact hdone.wake _ _
  | @abandoned id beganAt c found _ =>
    have hdone := h.comeBack found
      (s := { e.sink with cache := e.sink.cache.abandon c.job.tile c.job.region })
      (h.cache.abandon _ _) (h.ordered.abandon _ _) (Cache.sameSetting_abandon _ _ _)
      (fun j hj => Cache.getElem?_abandon_ne hj _) e.notified
    exact hdone.wake _ _
  | invalidated _ => exact ⟨h.cache, h.ordered, h.lends, h.onGrid⟩
  | detached _ => exact ⟨h.cache, h.ordered, h.lends, h.onGrid⟩
  | closed =>
    refine ⟨Cache.wellFormed_close _, Cache.ordered_of_tiles_empty rfl rfl, fun ho => ?_, h.onGrid⟩
    cases ho
  | ended => exact ⟨h.cache, h.ordered, h.lends, h.onGrid⟩

theorem Sound.step (h : e.Sound) (move : Move) : (e.step move).Sound :=
  step_induction (fun hc hd => hd.change hc) h

theorem Sound.run (h : e.Sound) (moves : List Move) : (e.run moves).Sound := by
  induction moves generalizing e with
  | nil => exact h
  | cons move moves ih => exact ih (h.step move)

/-! ## What never changes -/

/-- What a sink was given when it was made. -/
structure SameBase (e d : Engine) : Prop where
  config : d.sink.config = e.sink.config
  info : d.sink.cache.info = e.sink.cache.info
  size : d.sink.cache.size = e.sink.cache.size
  budget : d.sink.cache.budget = e.sink.cache.budget

theorem SameBase.trans (h : SameBase e d) (h' : SameBase d f) : SameBase e f :=
  ⟨h'.config.trans h.config, h'.info.trans h.info, h'.size.trans h.size,
    h'.budget.trans h.budget⟩

theorem SameBase.change (h : e.Sound) (hc : Change move e d) : SameBase e d := by
  have hsink := hc.sinkChange
  suffices hs : d.sink.config = e.sink.config ∧ d.sink.cache.info = e.sink.cache.info ∧
      d.sink.cache.size = e.sink.cache.size ∧ d.sink.cache.budget = e.sink.cache.budget from
    ⟨hs.1, hs.2.1, hs.2.2.1, hs.2.2.2⟩
  generalize d.sink = s at hsink ⊢
  have of_cache : ∀ {s : Sink}, s.config = e.sink.config → e.sink.cache.SameSetting s.cache →
      s.config = e.sink.config ∧ s.cache.info = e.sink.cache.info ∧
        s.cache.size = e.sink.cache.size ∧ s.cache.budget = e.sink.cache.budget :=
    fun hconfig hset => ⟨hconfig, hset.info, hset.size, hset.budget⟩
  cases hsink with
  | served _ found serving =>
    exact of_cache serving.config (h.asks (h.onGrid _ (mem_of_lookup found)) serving.asks).2.2.1
  | completed _ _ _ => exact of_cache rfl (Cache.sameSetting_complete _ _ _ _)
  | abandoned _ _ => exact of_cache rfl (Cache.sameSetting_abandon _ _ _)
  | same => exact ⟨rfl, rfl, rfl, rfl⟩
  | invalidated _ => exact ⟨rfl, rfl, rfl, rfl⟩
  | detached _ => exact ⟨rfl, rfl, rfl, rfl⟩
  | closed => exact ⟨rfl, rfl, rfl, rfl⟩

theorem SameBase.step (h : e.Sound) (move : Move) : SameBase e (e.step move) :=
  (step_induction (I := fun d => d.Sound ∧ SameBase e d)
    (fun hc hd => ⟨hd.1.change hc, hd.2.trans (SameBase.change hd.1 hc)⟩)
    ⟨h, rfl, rfl, rfl, rfl⟩).2

theorem SameBase.run (h : e.Sound) (moves : List Move) : SameBase e (e.run moves) := by
  induction moves generalizing e with
  | nil => exact ⟨rfl, rfl, rfl, rfl⟩
  | cons move moves ih => exact (SameBase.step h move).trans (ih (h.step move))

/-! ## What holds of all pulls -/

/-- What holds of pulls at their beginning, and is kept when they wake up and when they make a
step, holds of all pulls that are under way. -/
theorem forall_pulls_change {P : Pull → Prop} (h : ∀ np ∈ e.pulls, P np.2)
    (opened : ∀ {rect : Rect} {out out' : Region}, (∃ info, out.IsFor info) →
      out.buffer rect = .ok out' → P ⟨out', out'.valid.cells e.sink.size, .nothing⟩)
    (woken : ∀ {p : Pull} (painted : Bool), P p → P (p.wake painted))
    (served : ∀ {id amid : Nat}, move = .advance id amid → ∀ {p next : Pull} {s : Sink}
      {job? : Option Job}, (id, p) ∈ e.pulls → P p →
      e.sink.Serving amid p (s, .went next, job?) → P next)
    (hc : Change move e d) : ∀ np ∈ d.pulls, P np.2 := by
  have wake : ∀ {f : Engine} {client : Client} {painted : Bool} {np : Nat × Pull},
      np ∈ (f.wake client painted).pulls → f.pulls = e.pulls → P np.2 := by
    intro f client painted np hnp hf
    obtain ⟨mp, hmp, hsame | hwoken⟩ := mem_pulls_wake hnp
    · exact hsame ▸ h mp (hf ▸ hmp)
    · exact hwoken ▸ woken painted (h mp (hf ▸ hmp))
  cases hc with
  | opened isRegion buffered => exact List.forall_mem_cons.2 ⟨opened isRegion buffered, h⟩
  | left id => exact fun np hnp => h np (mem_pulls_dropPull hnp)
  | served isMove found serving =>
    intro np hnp
    rcases mem_pulls_carryOn hnp with hm | hwent
    · exact h np (mem_pulls_dropPull hm)
    · rename_i r
      obtain ⟨s, served', job?⟩ := r
      obtain rfl : served' = .went np.2 := hwent
      have hp := mem_of_lookup found
      exact served isMove hp (h _ hp) serving
  | finished _ _ _ => exact fun np hnp => wake hnp rfl
  | lost _ _ => exact fun np hnp => wake hnp rfl
  | abandoned _ _ => exact fun np hnp => wake hnp rfl
  | began _ => exact h
  | invalidated _ => exact h
  | detached _ => exact h
  | closed => exact h
  | ended => exact h

/-- What holds of all pulls that are under way holds of them after a move. -/
theorem Sound.forall_pulls_step (hs : e.Sound) {P : Pull → Prop} (h : ∀ np ∈ e.pulls, P np.2)
    (opened : ∀ {rect : Rect} {out out' : Region}, (∃ info, out.IsFor info) →
      out.buffer rect = .ok out' → P ⟨out', out'.valid.cells e.sink.size, .nothing⟩)
    (woken : ∀ {p : Pull} (painted : Bool), P p → P (p.wake painted))
    (served : ∀ {id amid : Nat} {p next : Pull} {s : Sink} {job? : Option Job},
      (id, p) ∈ e.pulls → P p → e.sink.Serving amid p (s, .went next, job?) → P next) :
    ∀ np ∈ (e.step move).pulls, P np.2 := by
  by_cases hm : ∃ id amid, move = .advance id amid
  · obtain ⟨id, amid, rfl⟩ := hm
    show ∀ np ∈ (e.advance id amid).1.pulls, P np.2
    rcases advance_change e id amid with hsame | hc
    · rw [hsame]
      exact h
    · exact forall_pulls_change h opened woken (fun _ => served) hc
  · refine (step_induction (I := fun d => d.Sound ∧ SameBase e d ∧ ∀ np ∈ d.pulls, P np.2)
      (fun hc hd => ?_) ⟨hs, ⟨rfl, rfl, rfl, rfl⟩, h⟩).2.2
    obtain ⟨hsound, hbase, hpulls⟩ := hd
    refine ⟨hsound.change hc, hbase.trans (SameBase.change hsound hc), ?_⟩
    refine forall_pulls_change hpulls (fun isRegion buffered => ?_) woken
      (fun isMove => absurd ⟨_, _, isMove⟩ hm) hc
    rw [Sink.size, hbase.size]
    exact opened isRegion buffered

/-! ## New sinks -/

section

variable {info : ImageInfo} {config : Config} {hasRuntime withMask : Bool} {s : Sink}

/-- What it takes to make a sink, and what the new sink is. -/
theorem exists_of_create (hs : Sink.create info config hasRuntime withMask = .ok s) :
    ∃ size budget, config.validate = .ok (size, budget) ∧
      (config.mode = .background → hasRuntime = true) ∧
      s = { config, cache := .create info size budget, generation := 0
            attached := if withMask then 2 else 1, zeroFilled := 0 } := by
  rw [Sink.create] at hs
  cases hv : config.validate with
  | error error =>
    rw [hv] at hs
    cases hs
  | ok sb =>
    rw [hv] at hs
    dsimp only [Except.bind, bind] at hs
    split at hs
    · cases hs
    · rename_i hruns
      refine ⟨sb.1, sb.2, rfl, fun hmode => ?_, (Except.ok.inj hs).symm⟩
      simpa [hmode] using hruns

/-- What a new sink is. -/
theorem eq_of_create (hs : Sink.create info config hasRuntime withMask = .ok s) :
    ∃ size budget, config.validate = .ok (size, budget) ∧
      s = { config, cache := .create info size budget, generation := 0
            attached := if withMask then 2 else 1, zeroFilled := 0 } := by
  obtain ⟨size, budget, hv, -, h⟩ := exists_of_create hs
  exact ⟨size, budget, hv, h⟩

/-- A new sink has an empty cache for the image and the configuration. -/
theorem create_eq_ok (hs : Sink.create info config hasRuntime withMask = .ok s) :
    ∃ size budget, config.validate = .ok (size, budget) ∧ s.config = config ∧
      s.generation = 0 ∧ s.cache = .create info size budget := by
  obtain ⟨size, budget, hv, rfl⟩ := eq_of_create hs
  exact ⟨size, budget, hv, rfl, rfl, rfl⟩

/-- A sink that computes in the background is made in a runtime. -/
theorem hasRuntime_of_create (hs : Sink.create info config hasRuntime withMask = .ok s) :
    config.mode = .background → hasRuntime = true := by
  obtain ⟨-, -, -, hruns, -⟩ := exists_of_create hs
  exact hruns

theorem sound_ofSink (hs : Sink.create info config hasRuntime withMask = .ok s) :
    (ofSink s hasRuntime).Sound := by
  obtain ⟨size, budget, -, -, -, hc⟩ := create_eq_ok hs
  have hcache : (ofSink s hasRuntime).sink.cache = .create info size budget := hc
  refine ⟨?_, ?_, fun _ => Cache.lends_nil _, fun np hnp => absurd hnp List.not_mem_nil⟩
  · rw [hcache]
    exact Cache.wellFormed_create info size budget
  · rw [hcache]
    exact Cache.ordered_of_tiles_empty rfl rfl

/-- Every run of a new sink is sound, and the sink keeps what it was given. -/
theorem sound_run (hs : Sink.create info config hasRuntime withMask = .ok s) (moves : List Move) :
    ((ofSink s hasRuntime).run moves).Sound ∧
      SameBase (ofSink s hasRuntime) ((ofSink s hasRuntime).run moves) :=
  ⟨(sound_ofSink hs).run moves, SameBase.run (sound_ofSink hs) moves⟩

theorem info_run (hs : Sink.create info config hasRuntime withMask = .ok s) (moves : List Move) :
    ((ofSink s hasRuntime).run moves).sink.cache.info = info := by
  obtain ⟨size, budget, -, -, -, hc⟩ := create_eq_ok hs
  rw [(sound_run hs moves).2.info]
  exact congrArg Cache.info hc

theorem limit?_run (hs : Sink.create info config hasRuntime withMask = .ok s)
    (moves : List Move) :
    ((ofSink s hasRuntime).run moves).sink.cache.budget.limit? = config.capacity := by
  obtain ⟨size, budget, hvalidate, -, -, hc⟩ := create_eq_ok hs
  rw [(sound_run hs moves).2.budget, ← limit?_of_validate hvalidate]
  exact congrArg (fun c => c.budget.limit?) hc

end

end Engine

end TileCache
