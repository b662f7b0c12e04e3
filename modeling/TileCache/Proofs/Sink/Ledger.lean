import TileCache.Proofs.Cache.Requests
import TileCache.Proofs.Sink.Stability

/-!
# The counts of a sink and what they count

A sink counts what happens in it, in several places.  Here the counts are compared with logs of the
run: of the kinds of its requests (`kindsBy`), of the ends of computations that had begun
(`fatesBy`), of the jobs that were lost (`lostBy`), and of the cells that were answered
(`answeredBy`).  A log looks at the state before a move, never at a count.

* `Ledger` says that the counts are those of the logs, and `Ledger.step` that every move enters in
  the logs what it adds to the counts.
* `zeroFilled_step`: the same for the cells that were answered with zeros, and `wrote_of_serve`
  for what is then in the region of the pull.
-/

set_option autoImplicit false

namespace TileCache

/-- What became of a computation that had begun. -/
inductive Fate
  | completed
  | failed
  /-- It broke off, or was dropped. -/
  | abandoned
deriving DecidableEq

/-- Every computation that has ended has one fate. -/
theorem Fate.length_eq (fates : List Fate) :
    fates.length = fates.count completed + fates.count failed + fates.count abandoned := by
  induction fates with
  | nil => rfl
  | cons fate fates ih =>
    cases fate <;> simp only [List.length_cons, List.count_cons, beq_iff_eq, reduceCtorEq, if_true,
      if_false] <;> omega

theorem Fate.countP_ne_completed (fates : List Fate) :
    fates.countP (· ≠ completed) = fates.count failed + fates.count abandoned := by
  induction fates with
  | nil => rfl
  | cons fate fates ih =>
    simp only [ne_eq] at ih ⊢
    cases fate <;> simp only [List.countP_cons, List.count_cons, beq_iff_eq, reduceCtorEq,
      not_true_eq_false, not_false_eq_true, decide_true, decide_false, if_true, if_false,
      Bool.false_eq_true] <;> omega

/-- What becomes of a computation whose call ends in this way. -/
def Ending.fate : Ending → Fate
  | .completed => .completed
  | .failed _ => .failed
  | .broken => .abandoned

/-- What becomes of a computation that is dropped, if it has begun. -/
def Computation.dropped? (c : Computation) : Option Fate := c.beganAt?.map fun _ => .abandoned

namespace Sink

/-- The cell that a step of the pull answers, and the tile that it looks at for that. -/
def look (s : Sink) (pull : Pull) : Option (Rect × Option Tile) :=
  match pull with
  | ⟨_, _, .computing _ _⟩ => none
  | ⟨_, _, .computed tile cell painted⟩ =>
    some (cell, s.cache.tiles[tile]?.filter fun t => painted && t.area == cell)
  | ⟨_, [], .nothing⟩ => none
  | ⟨_, cell :: _, .nothing⟩ =>
    match s.cache.acquire s.generation cell with
    | (c, .ready tile) => some (cell, c.tiles[tile]?)
    | (_, .unavailable) => some (cell, none)
    | (_, .broke _) => none
    | (c, .compute job) =>
      match s.config.mode with
      | .synchronous => none
      | .background => some (cell, c.tiles[job.tile]?)

/-- Does the tile have pixels to copy while the image is at `generation`? -/
def hasPixels (generation : Nat) (tile? : Option Tile) : Bool :=
  tile?.any fun t => t.region?.isSome && t.isValid generation

variable {s s' : Sink} {pull : Pull} {amid : Nat} {tile? : Option Tile} {cell : Rect}
  {cells : List Rect} {job? : Option Job}

theorem look_of_due (due : s.Due amid pull s' tile? cell cells job?) :
    s.look pull = some (cell, tile?) := by
  cases due with
  | woken => rfl
  | ready asked => simp only [look, asked]
  | unavailable asked => simp only [look, asked]
  | background asked mode => simp only [look, asked, mode]

/-- What a step of a pull that answers `cell` leaves in the region: the pixels of a valid tile of
the cell, if there was something to copy, and else zeros in the whole cell. -/
inductive Wrote (s : Sink) (pull next : Pull) (cell : Rect) : Bool → Prop
  | pixels {id : Nat} {t : Tile} {region : Region} (stands : s.cache.tiles[id]? = some t)
      (area : t.area = cell) (held : t.region? = some region)
      (valid : t.isValid s.generation = true)
      (copied : pull.out.copyFrom region (cell.intersect pull.out.valid) = .ok next.out) :
      Wrote s pull next cell true
  | zeros {area : Rect} (painted : pull.out.paint area 0 = .ok next.out)
      (covers : ∀ x y, pull.out.valid.contains x y = true →
        area.contains x y = cell.contains x y) : Wrote s pull next cell false

theorem serve_of_due (due : s.Due amid pull s' tile? cell cells job?) :
    s.serve pull amid = ((s'.answer tile? cell pull.out cells).1,
      (s'.answer tile? cell pull.out cells).2, job?) := by
  cases due with
  | woken => rfl
  | ready asked =>
    simp only [serve, asked]
    rfl
  | unavailable asked =>
    simp only [serve, asked]
    rfl
  | background asked mode =>
    simp only [serve, asked, mode]
    rfl

/-- What a step that has come to write a cell has written, and how it counts that. -/
theorem wrote_of_due (due : s.Due amid pull s' tile? cell cells job?)
    (ht : ∀ t, tile? = some t → (∃ id : Nat, s'.cache.tiles[id]? = some t) ∧ t.area = cell)
    {d : Sink} {next : Pull} {other? : Option Job}
    (h : s.serve pull amid = (d, .went next, other?)) :
    d.Wrote pull next cell (hasPixels d.generation tile?) ∧
      d.zeroFilled = s.zeroFilled + if hasPixels d.generation tile? then 0 else 1 := by
  rw [serve_of_due due] at h
  have hzero := due.zeroFilled
  cases hp : hasPixels s'.generation tile? with
  | true =>
    cases tile? with
    | none => cases hp
    | some t =>
      have hboth := hp
      rw [hasPixels, Option.any_some, Bool.and_eq_true] at hboth
      obtain ⟨region, hr⟩ := Option.isSome_iff_exists.1 hboth.1
      obtain ⟨⟨id, hid⟩, harea⟩ := ht t rfl
      rw [answer_of_valid hr hboth.2] at h
      cases hc : pull.out.copyFrom region (t.area.intersect pull.out.valid) with
      | error fault =>
        rw [hc] at h
        cases (Prod.mk.inj (Prod.mk.inj h).2).1
      | ok out =>
        rw [hc] at h
        obtain ⟨rfl, hrest⟩ := Prod.mk.inj h
        obtain rfl := Served.went.inj (Prod.mk.inj hrest).1
        have hsome : hasPixels (s'.answerPixels cells (.ok out)).1.generation (some t) = true := hp
        rw [hsome]
        exact ⟨.pixels hid harea hr hboth.2 (harea ▸ hc), hzero⟩
  | false =>
    have hn : ∀ t, tile? = some t →
        ¬ (∃ region, t.region? = some region) ∨ t.isValid s'.generation = false := by
      rintro t rfl
      rw [hasPixels, Option.any_some, Bool.and_eq_false_iff] at hp
      exact hp.imp_left fun hnone ⟨region, hr⟩ => by simp [hr] at hnone
    rw [answer_of_not_valid hn] at h
    cases hc : pull.out.paint (blankArea tile? cell pull.out) 0 with
    | error fault =>
      rw [hc] at h
      cases (Prod.mk.inj (Prod.mk.inj h).2).1
    | ok out =>
      rw [hc] at h
      obtain ⟨rfl, hrest⟩ := Prod.mk.inj h
      obtain rfl := Served.went.inj (Prod.mk.inj hrest).1
      have hnone : hasPixels (s'.answerZeros cells (.ok out)).1.generation tile? = false := hp
      rw [hnone]
      exact ⟨.zeros hc fun x y => contains_blankArea fun t hs => (ht t hs).2,
        congrArg (· + 1) hzero⟩

/-- **A step that goes on has answered the cell that it looked for**, counts it if it has copied
nothing, and has written nothing if it looked for none. -/
theorem wrote_of_serve (hw : s.cache.WellFormed)
    (hg : ∀ cell, IsDue pull cell → s.cache.size.IsCell cell) {next : Pull}
    (h : s.serve pull amid = (s', .went next, job?)) :
    (s.look pull = none ∧ next.out = pull.out ∧ s'.zeroFilled = s.zeroFilled) ∨
      ∃ cell tile?, s.look pull = some (cell, tile?) ∧
        s'.Wrote pull next cell (hasPixels s'.generation tile?) ∧
        s'.zeroFilled = s.zeroFilled + if hasPixels s'.generation tile? then 0 else 1 := by
  have looked : ∀ {d : Sink} {tile? : Option Tile} {cell : Rect} {cells : List Rect}
      {other? : Option Job}, s.Due amid pull d tile? cell cells other? →
      ∃ cell tile?, s.look pull = some (cell, tile?) ∧
        s'.Wrote pull next cell (hasPixels s'.generation tile?) ∧
        s'.zeroFilled = s.zeroFilled + if hasPixels s'.generation tile? then 0 else 1 :=
    fun due => ⟨_, _, look_of_due due,
      wrote_of_due due (fun t ht => due.tile_area hw hg ht) h⟩
  have serving := serving s pull amid
  rw [h] at serving
  cases serving with
  | idle rests =>
    refine .inl ⟨?_, rfl, rfl⟩
    obtain ⟨out, cells, wait⟩ := pull
    cases wait with
    | computing _ _ => rfl
    | computed _ _ _ => cases cells <;> simp [Pull.isWaiting, Pull.isDone] at rests
    | nothing =>
      cases cells with
      | nil => rfl
      | cons cell cells => simp [Pull.isWaiting, Pull.isDone] at rests
  | waits asked mode =>
    refine .inl ⟨?_, rfl, rfl⟩
    simp only [look, asked, mode]
  | zeroed due _ => exact .inr (looked due)
  | copied due _ _ _ => exact .inr (looked due)

end Sink

namespace Engine

variable {e d : Engine} {move : Move} {id : Nat} {kinds : List Kind} {fates : List Fate}
  {gone : List Job}

/-! ## The logs -/

/-- The kinds of the requests that a move makes. -/
def kindsBy (e : Engine) (move : Move) : List Kind :=
  (e.requestedBy move).map (e.sink.cache.kindOf e.sink.generation)

/-- What becomes of the computations that end in a move after they had begun. -/
def fatesBy (e : Engine) : Move → List Fate
  | .finish id source =>
    match e.computations.lookup id with
    | none => []
    | some c => if c.beganAt?.isSome then [(source c.job.region).ending.fate] else []
  | .drop id => ((e.computations.lookup id).bind Computation.dropped?).toList
  | .shutdown => e.computations.flatMap fun nc => nc.2.dropped?.toList
  | .openPull _ _ _ | .advance _ _ | .dropPull _ | .begin _ | .invalidate | .detach => []

/-- The counts of a sink are those of the logs. -/
structure Ledger (e : Engine) (kinds : List Kind) (fates : List Fate) (gone : List Job) :
    Prop where
  hits : e.sink.cache.counters.hits = kinds.count .hit
  evictions : e.sink.cache.counters.evictions = kinds.count .moved
  allocationFailures : e.sink.cache.counters.allocationFailures = kinds.count .refused
  exhausted : e.sink.cache.counters.exhausted = kinds.count .exhausted
  tiles : e.sink.cache.tiles.size = kinds.count .added
  computes : e.sink.cache.counters.computes =
    kinds.count .added + kinds.count .moved + kinds.count .renewed
  computeFailures : e.sink.cache.counters.computeFailures = fates.count .failed
  jobs : e.sink.cache.counters.computes = fates.length + gone.length + e.jobs.length

/-- A move that leaves the counts, the tiles and the computations alone enters nothing. -/
theorem Ledger.congr (h : e.Ledger kinds fates gone)
    (hcounters : d.sink.cache.counters = e.sink.cache.counters)
    (htiles : d.sink.cache.tiles.size = e.sink.cache.tiles.size)
    (hjobs : d.jobs.length = e.jobs.length) : d.Ledger kinds fates gone := by
  refine ⟨?_, ?_, ?_, ?_, ?_, ?_, ?_, ?_⟩
  · rw [hcounters, h.hits]
  · rw [hcounters, h.evictions]
  · rw [hcounters, h.allocationFailures]
  · rw [hcounters, h.exhausted]
  · rw [htiles, h.tiles]
  · rw [hcounters, h.computes]
  · rw [hcounters, h.computeFailures]
  · rw [hcounters, hjobs, h.jobs]

/-! ## Requests -/

/-- A request is entered as one of its kind. -/
theorem Ledger.request (h : e.Ledger kinds fates gone) {kind : Kind} {lost : List Job}
    (hcounters : d.sink.cache.counters = kind.tally e.sink.cache.counters)
    (htiles : d.sink.cache.tiles.size = e.sink.cache.tiles.size + [kind].count .added)
    (hjobs : lost.length + d.jobs.length =
      (if kind.starts then 1 else 0) + e.jobs.length) :
    d.Ledger (kinds ++ [kind]) fates (gone ++ lost) := by
  obtain ⟨hhits, hevictions, hallocations, hexhausted, hsize, hcomputes, hfailures, hall⟩ := h
  constructor <;> simp only [hcounters, htiles, List.count_append, List.length_append] <;>
    cases kind <;>
    simp_all [Kind.tally, Kind.starts, List.count_nil] <;> omega

/-- There is a job if the request is of a kind that starts one. -/
theorem length_handedOut {kind : Kind} {acquired : Acquired}
    (h : kind.starts = true ↔ ∃ job, acquired = .compute job) :
    (Sink.handedOut acquired).toList.length = if kind.starts then 1 else 0 := by
  cases acquired with
  | compute job =>
    rw [if_pos (h.2 ⟨job, rfl⟩)]
    rfl
  | ready tile =>
    rw [if_neg fun hk => by cases (h.1 hk).choose_spec]
    rfl
  | unavailable =>
    rw [if_neg fun hk => by cases (h.1 hk).choose_spec]
    rfl
  | broke fault =>
    rw [if_neg fun hk => by cases (h.1 hk).choose_spec]
    rfl

/-- The job of a step is under way, or lost. -/
theorem length_jobs_carryOn (e : Engine) (id : Nat) (client : Client)
    (r : Sink × Served × Option Job) :
    (if client = .nobody ∧ !e.hasRuntime then r.2.2.toList else []).length +
      (e.carryOn id client r).1.jobs.length = r.2.2.toList.length + e.jobs.length := by
  rw [jobs_carryOn]
  split
  · rfl
  · rw [List.length_append, List.length_nil, Nat.zero_add]

/-- What a step of a pull asks for is entered. -/
theorem Ledger.advance (hs : e.Sound) (ho : e.sink.cache.isOpen = true)
    (h : e.Ledger kinds fates gone) (id amid : Nat) :
    (e.advance id amid).1.Ledger (kinds ++ e.kindsBy (.advance id amid)) fates
      (gone ++ e.lostBy (.advance id amid)) := by
  rw [Engine.advance, kindsBy, requestedBy, lostBy]
  cases hf : e.pulls.lookup id with
  | none =>
    rw [Option.bind_none, Option.toList_none, List.map_nil, List.append_nil, List.append_nil]
    exact h
  | some pull =>
    rw [Option.bind_some]
    dsimp only
    split
    · rename_i hdone
      rw [Pull.next?_of_isDone hdone, serve_of_isDone hdone, Option.toList_none,
        Option.toList_none, ite_self, List.map_nil, List.append_nil, List.append_nil]
      exact h.congr rfl rfl rfl
    · have hasks := (Sink.serving e.sink pull amid).asks
      have hsink := sink_carryOn (e.dropPull id) id (e.clientOf id) (e.sink.serve pull amid)
      have hjobs : (if e.clientOf id = .nobody ∧ !e.hasRuntime then
              (e.sink.serve pull amid).2.2.toList else []).length +
            ((e.dropPull id).carryOn id (e.clientOf id) (e.sink.serve pull amid)).1.jobs.length =
          (e.sink.serve pull amid).2.2.toList.length + e.jobs.length :=
        length_jobs_carryOn (e.dropPull id) id (e.clientOf id) _
      rcases hasks with ⟨hnext, hcache, hjob⟩ | ⟨cell, acquired, hnext, hacq, hjob⟩
      · rw [hjob] at hjobs ⊢
        rw [Option.toList_none, ite_self, List.length_nil, Nat.zero_add, Nat.zero_add] at hjobs
        rw [hnext, Option.toList_none, Option.toList_none, ite_self, List.map_nil,
          List.append_nil, List.append_nil]
        refine h.congr ?_ ?_ hjobs
        · rw [hsink, hcache]
        · rw [hsink, hcache]
      · obtain ⟨hcounters, hsize, hstarts⟩ :=
          Cache.acquire_kind hs.cache ho e.sink.generation cell
        rw [hacq] at hcounters hsize hstarts
        rw [hnext]
        refine h.request ?_ ?_ ?_
        · rw [hsink]
          exact hcounters
        · rw [hsink]
          exact hsize
        · rw [hjobs, hjob, length_handedOut hstarts]

/-! ## Ends of computations -/

/-- A computation is forgotten, and its fate is entered. -/
theorem Ledger.forget (h : e.Ledger kinds fates gone) {c : Computation}
    (hf : e.computations.lookup id = some c) {fate : Fate}
    (hcounters : d.sink.cache.counters = { e.sink.cache.counters with
      computeFailures := e.sink.cache.counters.computeFailures + [fate].count .failed })
    (htiles : d.sink.cache.tiles.size = e.sink.cache.tiles.size)
    (hjobs : d.jobs = (e.forget id).jobs) : d.Ledger kinds (fates ++ [fate]) gone := by
  have hlength : e.jobs.length = d.jobs.length + 1 := by
    rw [(perm_forget hf).length_eq, hjobs]
    rfl
  have hall := h.jobs
  refine ⟨?_, ?_, ?_, ?_, ?_, ?_, ?_, ?_⟩
  · rw [hcounters, h.hits]
  · rw [hcounters, h.evictions]
  · rw [hcounters, h.allocationFailures]
  · rw [hcounters, h.exhausted]
  · rw [htiles, h.tiles]
  · rw [hcounters, h.computes]
  · rw [hcounters, h.computeFailures, List.count_append]
  · rw [hcounters, List.length_append, List.length_singleton]
    show e.sink.cache.counters.computes = _
    omega

/-- What the cache counts when a call has ended. -/
theorem counters_settle {s : Sink} (ho : s.cache.isOpen = true) (job : Job) (beganAt : Nat)
    (answer : Answer) :
    (s.settle job beganAt answer).1.cache.counters = { s.cache.counters with
      computeFailures := s.cache.counters.computeFailures + [answer.ending.fate].count .failed } ∧
      (s.settle job beganAt answer).1.cache.tiles.size = s.cache.tiles.size := by
  rw [Sink.settle]
  cases answer.ending with
  | completed => exact ⟨Cache.counters_complete _ _ _, Cache.tiles_size_complete _ _ _ _⟩
  | failed error =>
    exact ⟨Cache.counters_complete_false ho _ _, Cache.tiles_size_complete _ _ _ _⟩
  | broken => exact ⟨Cache.counters_abandon _ _ _, Cache.tiles_size_abandon _ _ _⟩

theorem Ledger.finish (ho : e.sink.cache.isOpen = true) (h : e.Ledger kinds fates gone) (id : Nat)
    (source : Source) :
    (e.step (.finish id source)).Ledger kinds (fates ++ e.fatesBy (.finish id source)) gone := by
  rw [fatesBy]
  cases hf : e.computations.lookup id with
  | none =>
    rw [step_finish_of_none source hf, List.append_nil]
    exact h
  | some c =>
    cases hb : c.beganAt? with
    | none =>
      rw [step_finish_of_queued source hf hb]
      simpa [hb] using h
    | some beganAt =>
      obtain ⟨hcounters, hsize⟩ := counters_settle ho c.job beganAt (source c.job.region)
      rw [step_finish_of_some source hf, Engine.finish, hf]
      simp only [hb, Option.isSome_some, if_true]
      rw [wake_eq]
      split <;> exact h.forget hf hcounters hsize rfl

/-- A job that is lost is entered. -/
theorem Ledger.lose (h : e.Ledger kinds fates gone) {c : Computation}
    (hf : e.computations.lookup id = some c) :
    ((e.forget id).wake c.client false).Ledger kinds fates (gone ++ [c.job]) := by
  rw [wake_eq]
  obtain ⟨hhits, hevictions, hallocations, hexhausted, hsize, hcomputes, hfailures, hall⟩ := h
  refine ⟨hhits, hevictions, hallocations, hexhausted, hsize, hcomputes, hfailures, ?_⟩
  show e.sink.cache.counters.computes = _ + _ + (e.forget id).jobs.length
  rw [hall, (perm_forget hf).length_eq, List.length_append, List.length_singleton,
    List.length_cons]
  omega

theorem Ledger.drop (h : e.Ledger kinds fates gone) (id : Nat) :
    (e.drop id).Ledger kinds (fates ++ e.fatesBy (.drop id)) (gone ++ e.lostBy (.drop id)) := by
  rw [Engine.drop, fatesBy, lostBy]
  cases hf : e.computations.lookup id with
  | none =>
    rw [Option.bind_none, Option.bind_none, Option.toList_none, Option.toList_none,
      List.append_nil, List.append_nil]
    exact h
  | some c =>
    rw [Option.bind_some, Option.bind_some, Computation.dropped?, Computation.queued?]
    dsimp only
    cases hb : c.beganAt? with
    | none =>
      rw [Option.map_none, Option.toList_none, List.append_nil]
      exact h.lose hf
    | some beganAt =>
      rw [Option.toList_none, List.append_nil]
      simp only
      rw [wake_eq]
      exact h.forget hf (Cache.counters_abandon _ _ _) (Cache.tiles_size_abandon _ _ _) rfl

/-- The end of the runtime drops all computations, one after the other. -/
theorem ledger_foldl_drop : ∀ (cs : List (Nat × Computation)) {e : Engine} {fates : List Fate}
    {gone : List Job}, e.computations = cs → e.Ledger kinds fates gone →
      ((cs.map (·.1)).foldl Engine.drop e).Ledger kinds
        (fates ++ cs.flatMap fun nc => nc.2.dropped?.toList)
        (gone ++ cs.flatMap fun nc => nc.2.queued?.toList)
  | [], e, fates, gone, _, h => by rwa [List.flatMap_nil, List.flatMap_nil, List.append_nil,
      List.append_nil]
  | (n, c) :: cs, e, fates, gone, hc, h => by
    have hf : e.computations.lookup n = some c := by rw [hc, List.lookup_cons_self]
    have hdrop := h.drop n
    rw [fatesBy, lostBy, hf, Option.bind_some, Option.bind_some] at hdrop
    rw [List.flatMap_cons, List.flatMap_cons, ← List.append_assoc, ← List.append_assoc]
    exact ledger_foldl_drop cs (computations_drop_of_cons hc) hdrop

/-! ## Moves -/

/-- **Every move enters in the logs what it adds to the counts.** -/
theorem Ledger.step (hs : e.Sound) (ho : (e.step move).sink.cache.isOpen = true)
    (h : e.Ledger kinds fates gone) :
    (e.step move).Ledger (kinds ++ e.kindsBy move) (fates ++ e.fatesBy move)
      (gone ++ e.lostBy move) := by
  have hopen := isOpen_of_step hs ho
  have quiet : e.kindsBy move = [] → e.fatesBy move = [] → e.lostBy move = [] →
      (e.step move).Ledger kinds fates gone →
      (e.step move).Ledger (kinds ++ e.kindsBy move) (fates ++ e.fatesBy move)
        (gone ++ e.lostBy move) := by
    intro hkinds hfates hlost hsame
    rwa [hkinds, hfates, hlost, List.append_nil, List.append_nil, List.append_nil]
  cases move with
  | openPull rect out hr =>
    refine quiet rfl rfl rfl ?_
    cases hb : e.openPull rect out with
    | error error => rwa [step_openPull_of_error hr hb]
    | ok dn =>
      obtain ⟨out', -, hd⟩ := openPull_eq_ok hb
      rw [step_openPull_of_ok hr hb, hd]
      exact h.congr rfl rfl rfl
  | advance id amid =>
    rw [fatesBy, List.append_nil]
    exact h.advance hs hopen id amid
  | dropPull id => exact quiet rfl rfl rfl (h.congr rfl rfl rfl)
  | begin id => exact quiet rfl rfl rfl (h.congr rfl rfl (congrArg List.length (jobs_begin e id)))
  | finish id source =>
    rw [show e.kindsBy (.finish id source) = [] from rfl, lostBy, List.append_nil, List.append_nil]
    exact h.finish hopen id source
  | drop id =>
    rw [show e.kindsBy (.drop id) = [] from rfl, List.append_nil]
    exact h.drop id
  | invalidate => exact quiet rfl rfl rfl (h.congr rfl rfl rfl)
  | detach =>
    refine quiet rfl rfl rfl ?_
    change e.detach.sink.cache.isOpen = true at ho
    show e.detach.Ledger kinds fates gone
    rw [Engine.detach, Sink.detach] at ho ⊢
    split at ho
    · exact h
    · cases ho
    · exact h.congr rfl rfl rfl
  | shutdown =>
    rw [show e.kindsBy .shutdown = [] from rfl, List.append_nil]
    exact (ledger_foldl_drop e.computations rfl h).congr rfl rfl rfl

/-! ## Cells that are answered -/

/-- The cells that a move answers, and whether their pixels were copied. -/
def answeredBy (e : Engine) : Move → List (Rect × Bool)
  | .advance id amid =>
    match e.pulls.lookup id with
    | none => []
    | some pull =>
      match e.sink.serve pull amid with
      | (_, .broke _, _) => []
      | (s, .went _, _) => (e.sink.look pull).toList.map fun (cell, tile?) =>
        (cell, Sink.hasPixels s.generation tile?)
  | .openPull _ _ _ | .dropPull _ | .begin _ | .finish _ _ | .drop _ | .invalidate | .detach
  | .shutdown => []

/-- How many of the cells were answered with zeros. -/
def zerosAmong (answers : List (Rect × Bool)) : Nat := answers.countP fun answer => !answer.2

theorem zerosAmong_singleton (cell : Rect) (copied : Bool) :
    zerosAmong [(cell, copied)] = if copied then 0 else 1 := by
  cases copied <;> rfl

theorem zerosAmong_append (before after : List (Rect × Bool)) :
    zerosAmong (before ++ after) = zerosAmong before + zerosAmong after :=
  List.countP_append

/-- What an elementary change that is no step of a pull leaves of the count of zeros. -/
theorem zeroFilled_change (hc : Change move e d) (hm : ∀ id amid, move ≠ .advance id amid) :
    d.sink.zeroFilled = e.sink.zeroFilled := by
  have hsink := hc.sinkChange
  generalize d.sink = s at hsink ⊢
  cases hsink with
  | served isMove _ _ => exact absurd isMove (hm _ _)
  | same => rfl
  | completed _ _ _ => rfl
  | abandoned _ _ => rfl
  | invalidated _ => rfl
  | detached _ => rfl
  | closed => rfl

theorem zeroFilled_advance (hs : e.Sound) (id amid : Nat) :
    (e.advance id amid).1.sink.zeroFilled =
      e.sink.zeroFilled + zerosAmong (e.answeredBy (.advance id amid)) := by
  rw [Engine.advance, answeredBy]
  cases hf : e.pulls.lookup id with
  | none => rfl
  | some pull =>
    have hg := hs.onGrid _ (mem_of_lookup hf)
    dsimp only
    split
    · rename_i hdone
      obtain ⟨out, cells, wait⟩ := pull
      cases cells with
      | cons cell cells => cases hdone
      | nil =>
        cases wait with
        | nothing => rfl
        | computing _ _ => cases hdone
        | computed _ _ _ => cases hdone
    · rw [sink_carryOn]
      cases hserve : e.sink.serve pull amid with
      | mk s rest =>
        obtain ⟨served, job?⟩ := rest
        cases served with
        | broke fault =>
          have serving := Sink.serving e.sink pull amid
          rw [hserve] at serving
          cases serving with
          | broke due => exact due.zeroFilled
          | stopped asked => rfl
        | went next =>
          rcases Sink.wrote_of_serve hs.cache hg hserve with
            ⟨hlook, -, hzero⟩ | ⟨cell, tile?, hlook, -, hzero⟩
          · simp only [hlook]
            exact hzero
          · simp only [hlook]
            exact hzero.trans (congrArg _ (zerosAmong_singleton cell _).symm)

/-- **Every move counts the cells that it answers with zeros.** -/
theorem zeroFilled_step (hs : e.Sound) (move : Move) :
    (e.step move).sink.zeroFilled = e.sink.zeroFilled + zerosAmong (e.answeredBy move) := by
  by_cases hm : ∃ id amid, move = .advance id amid
  · obtain ⟨id, amid, rfl⟩ := hm
    exact zeroFilled_advance hs id amid
  · have hm' : ∀ id amid, move ≠ .advance id amid := fun id amid h => hm ⟨id, amid, h⟩
    have hnone : e.answeredBy move = [] := by
      cases move with
      | advance id amid => exact absurd rfl (hm' id amid)
      | openPull _ _ _ => rfl
      | dropPull _ => rfl
      | begin _ => rfl
      | finish _ _ => rfl
      | drop _ => rfl
      | invalidate => rfl
      | detach => rfl
      | shutdown => rfl
    rw [hnone]
    exact step_induction (I := fun d => d.sink.zeroFilled = e.sink.zeroFilled)
      (fun hc hd => (zeroFilled_change hc hm').trans hd) rfl

end Engine

end TileCache
