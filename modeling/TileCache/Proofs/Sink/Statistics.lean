import TileCache.Proofs.Sink.Alone
import TileCache.Proofs.Sink.Turns

/-!
# Statistics

The counts of a sink add up: every request is counted once, every computation comes from a request
and ends in one way, and the cells that were answered with zeros are those that were answered and
not copied.  `statistics_run` says so for every run, from the accounts that each move keeps
(`Ledger.step`, `zeroFilled_step`), and, for pulls that come in turn, where the zeros come from
(`settles_step`).
-/

set_option autoImplicit false

namespace TileCache

namespace Engine

variable {e : Engine}

/-! ## Runs -/

/-- The statistics of a sink with `jobs` computations under way add up: they are those of the
requests, the ends of computations, the lost jobs and the answers of a run. -/
structure Balanced (stats : Stats) (jobs : Nat) (kinds : List Kind) (fates : List Fate)
    (gone : List Job) (answers : List (Rect × Bool)) : Prop where
  requests : kinds.length = stats.counters.hits + stats.counters.computes +
    stats.counters.allocationFailures + stats.counters.exhausted + kinds.count .busy +
    kinds.count .broken
  tiles : stats.tiles = kinds.count .added
  evictions : stats.counters.evictions = kinds.count .moved
  starts : stats.counters.computes =
    stats.tiles + stats.counters.evictions + kinds.count .renewed
  failures : stats.counters.computeFailures = fates.count .failed
  ends : stats.counters.computes = fates.count .completed + stats.counters.computeFailures +
    fates.count .abandoned + gone.length + jobs
  zeros : stats.zeroFilled = zerosAmong answers

theorem Ledger.balanced {kinds : List Kind} {fates : List Fate} {gone : List Job}
    {answers : List (Rect × Bool)} (h : e.Ledger kinds fates gone)
    (hzeros : e.sink.zeroFilled = zerosAmong answers) :
    Balanced e.sink.stats e.jobs.length kinds fates gone answers := by
  obtain ⟨hhits, hevictions, hallocations, hexhausted, htiles, hcomputes, hfailures, hjobs⟩ := h
  have hkinds := Kind.length_eq kinds
  have hfates := Fate.length_eq fates
  constructor <;> simp only [Sink.stats] <;> omega

section

variable {info : ImageInfo} {config : Config} {hasRuntime withMask : Bool} {s : Sink}

theorem ledger_run (hs : Sink.create info config hasRuntime withMask = .ok s) {moves : List Move}
    (ho : ((ofSink s hasRuntime).run moves).sink.cache.isOpen = true) :
    ((ofSink s hasRuntime).run moves).Ledger (collect kindsBy (ofSink s hasRuntime) moves)
      (collect fatesBy (ofSink s hasRuntime) moves) ((ofSink s hasRuntime).lost moves) := by
  induction moves using List.reverseRecOn with
  | nil =>
    obtain ⟨size, budget, -, -, -, hc⟩ := create_eq_ok hs
    have hcounters : s.cache.counters = {} := congrArg Cache.counters hc
    have htiles : s.cache.tiles = #[] := congrArg Cache.tiles hc
    constructor <;> simp [ofSink, collect, collectAlong, lost, jobs, hcounters, htiles]
  | append_singleton moves move ih =>
    have hsound := (sound_run hs moves).1
    rw [run_concat] at ho ⊢
    rw [lost, collect_concat, collect_concat, collect_concat]
    exact (ih (isOpen_of_step hsound ho)).step hsound ho

/-- A request that breaks off takes its pull with it. -/
theorem faultsBy_of_broken (hs : e.Sound) (ho : e.sink.cache.isOpen = true) {move : Move}
    (h : .broken ∈ e.kindsBy move) : e.faultsBy move ≠ [] := by
  obtain ⟨cell, hcell, hkind⟩ := List.mem_map.1 h
  cases move with
  | advance id amid =>
    obtain ⟨⟨out, cells, wait⟩, hf, hnext⟩ := Option.bind_eq_some_iff.1 (Option.mem_toList.1 hcell)
    obtain ⟨fault, hbroke⟩ := Cache.exists_fault_of_broken hs.cache ho hkind
    cases cells with
    | nil => cases wait <;> cases hnext
    | cons first cells =>
      cases wait with
      | nothing =>
        obtain rfl := Option.some.inj hnext
        have hserve : (e.sink.serve ⟨out, first :: cells, .nothing⟩ amid).2.1 = .broke fault := by
          rw [Sink.serve]
          generalize e.sink.cache.acquire e.sink.generation first = r at hbroke
          obtain ⟨d, acquired⟩ := r
          obtain rfl : acquired = .broke fault := hbroke
          rfl
        generalize hr : e.sink.serve ⟨out, first :: cells, .nothing⟩ amid = r at hserve
        obtain ⟨s, served, job?⟩ := r
        obtain rfl : served = .broke fault := hserve
        rw [(left_of_broke hf rfl hr).1]
        exact List.cons_ne_nil _ _
      | computing _ _ => cases hnext
      | computed _ _ _ => cases hnext
  | openPull _ _ _ => cases hcell
  | dropPull _ => cases hcell
  | begin _ => cases hcell
  | finish _ _ => cases hcell
  | drop _ => cases hcell
  | invalidate => cases hcell
  | detach => cases hcell
  | shutdown => cases hcell

/-- If no pull breaks off, no request does. -/
theorem count_broken_run (hs : Sink.create info config hasRuntime withMask = .ok s)
    {moves : List Move} (ho : ((ofSink s hasRuntime).run moves).sink.cache.isOpen = true)
    (hfaults : collect faultsBy (ofSink s hasRuntime) moves = []) :
    (collect kindsBy (ofSink s hasRuntime) moves).count .broken = 0 := by
  induction moves using List.reverseRecOn with
  | nil => rfl
  | append_singleton moves move ih =>
    have hsound := (sound_run hs moves).1
    rw [run_concat] at ho
    rw [collect_concat, List.append_eq_nil_iff] at hfaults
    have hopen := isOpen_of_step hsound ho
    rw [collect_concat, List.count_append, ih hopen hfaults.1, List.count_eq_zero.2 fun hbroken =>
      faultsBy_of_broken hsound hopen hbroken hfaults.2]

theorem zeroFilled_run (hs : Sink.create info config hasRuntime withMask = .ok s)
    (moves : List Move) : ((ofSink s hasRuntime).run moves).sink.zeroFilled =
      zerosAmong (collect answeredBy (ofSink s hasRuntime) moves) := by
  induction moves using List.reverseRecOn with
  | nil =>
    obtain ⟨size, budget, -, rfl⟩ := eq_of_create hs
    rfl
  | append_singleton moves move ih =>
    rw [run_concat, collect_concat, zerosAmong_append, zeroFilled_step (sound_run hs moves).1, ih]

/-- Each request is of one kind. -/
theorem length_kinds (e : Engine) (moves : List Move) :
    (collect kindsBy e moves).length = (collect requestedBy e moves).length := by
  induction moves using List.reverseRecOn with
  | nil => rfl
  | append_singleton moves move ih =>
    rw [collect_concat, collect_concat, List.length_append, List.length_append, ih, kindsBy,
      List.length_map]

/-- What a run in turn owes in the end. -/
theorem owes_run (hs : Sink.create info config hasRuntime withMask = .ok s)
    (hmode : config.mode = .synchronous) {moves : List Move}
    (ho : ((ofSink s hasRuntime).run moves).sink.cache.isOpen = true)
    (hturn : InTurn (ofSink s hasRuntime) moves)
    (hfaults : collect faultsBy (ofSink s hasRuntime) moves = []) :
    ∃ n, ((ofSink s hasRuntime).run moves).Owes n ∧
      zerosAmong (collect answeredBy (ofSink s hasRuntime) moves) + n =
        (collect kindsBy (ofSink s hasRuntime) moves).countP Kind.isVain +
          (collect fatesBy (ofSink s hasRuntime) moves).countP (· ≠ .completed) +
          ((ofSink s hasRuntime).lost moves).length := by
  induction moves using List.reverseRecOn with
  | nil => exact ⟨0, .idle rfl rfl, rfl⟩
  | append_singleton moves move ih =>
    obtain ⟨hsound, hbase⟩ := sound_run hs moves
    obtain ⟨size, budget, -, hconfig, -, -⟩ := create_eq_ok hs
    rw [run_concat] at ho ⊢
    rw [collect_concat, List.append_eq_nil_iff] at hfaults
    obtain ⟨hbefore, hadmits⟩ : InTurn _ _ ∧ _ := throughout_concat.1 hturn
    have hopen := isOpen_of_step hsound ho
    obtain ⟨n, howes, hsum⟩ := ih hopen hbefore hfaults.1
    have hmode' : ((ofSink s hasRuntime).run moves).sink.config.mode = .synchronous := by
      rw [hbase.config]
      exact (congrArg Config.mode hconfig).trans hmode
    obtain ⟨m, hm, hstep⟩ := settles_step hsound hmode' hopen hadmits howes hfaults.2
    refine ⟨m, hm, ?_⟩
    rw [incurredBy] at hstep
    rw [lost, collect_concat, collect_concat, collect_concat, collect_concat, zerosAmong_append,
      List.countP_append, List.countP_append, List.length_append]
    rw [lost] at hsum
    omega

/-- If nothing is lost in a run in turn, no request finds its tile in computation. -/
theorem count_busy_run (hs : Sink.create info config hasRuntime withMask = .ok s)
    (hmode : config.mode = .synchronous) {moves : List Move}
    (ho : ((ofSink s hasRuntime).run moves).sink.cache.isOpen = true)
    (hturn : InTurn (ofSink s hasRuntime) moves)
    (hfaults : collect faultsBy (ofSink s hasRuntime) moves = [])
    (hgone : (ofSink s hasRuntime).lost moves = []) :
    (collect kindsBy (ofSink s hasRuntime) moves).count .busy = 0 := by
  induction moves using List.reverseRecOn with
  | nil => rfl
  | append_singleton moves move ih =>
    have hsound := (sound_run hs moves).1
    rw [run_concat] at ho
    rw [collect_concat, List.append_eq_nil_iff] at hfaults
    rw [lost, collect_concat, List.append_eq_nil_iff] at hgone
    have hopen := isOpen_of_step hsound ho
    have hbefore : InTurn _ _ := (throughout_concat.1 hturn).1
    obtain ⟨n, howes, -⟩ := owes_run hs hmode hopen hbefore hfaults.1
    have haccounted := accounted_run hs moves
    rw [lost, hgone.1] at haccounted
    rw [collect_concat, List.count_append, ih hopen hbefore hfaults.1 hgone.1,
      List.count_eq_zero.2 (howes.not_busy hopen haccounted move)]

/-- **The statistics account for everything.**  Take any run of a new sink that leaves it open.

* Its requests and the ends of its computations are those that it counts (`Balanced`): a request is
  a hit, a computation, a refusal, finds its tile in computation, or breaks off, and none does that
  if no pull breaks off; a computation is one for each tile, one for each eviction, and one for each
  blank or stale tile that is computed again; and it has completed, failed, broken off or got lost,
  unless it is still under way.
* In the state that the run leads to, the kind of a request says what it will do; if a tile is
  added, moved or computed again, there is always a job for it.
* The cells that were answered with zeros are counted as such.  A step that answers a cell writes
  the pixels of a valid tile or else zeros, and counts the latter.
* If pulls come in turn to a synchronous sink, do not break off, and none is under way, each cell
  answered with zeros goes back to one failure, or to a job that was lost with the runtime.  None is
  lost if no computation is dropped and the runtime stays. -/
theorem statistics_run (hs : Sink.create info config hasRuntime withMask = .ok s)
    {moves : List Move} (ho : ((ofSink s hasRuntime).run moves).sink.cache.isOpen = true) :
    let start := ofSink s hasRuntime
    let e := start.run moves
    let counts := e.sink.stats.counters
    let kinds := collect kindsBy start moves
    let fates := collect fatesBy start moves
    let gone := start.lost moves
    let failures := counts.computeFailures + fates.count .abandoned + counts.allocationFailures +
      counts.exhausted
    kinds.length = (collect requestedBy start moves).length ∧
      Balanced e.sink.stats e.jobs.length kinds fates gone (collect answeredBy start moves) ∧
      (collect faultsBy start moves = [] → kinds.count .broken = 0) ∧
      (∀ generation cell,
        let kind := e.sink.cache.kindOf generation cell
        let (after, acquired) := e.sink.cache.acquire generation cell
        after.counters = kind.tally e.sink.cache.counters ∧
          after.tiles.size = e.sink.cache.tiles.size + [kind].count .added ∧
          (kind.starts = true ↔ ∃ job, acquired = .compute job)) ∧
      (∀ id pull amid after next job?, e.pulls.lookup id = some pull →
        e.sink.serve pull amid = (after, .went next, job?) →
        (e.sink.look pull = none ∧ next.out = pull.out ∧
            after.zeroFilled = e.sink.zeroFilled) ∨
          ∃ cell tile?, e.sink.look pull = some (cell, tile?) ∧
            after.Wrote pull next cell (Sink.hasPixels after.generation tile?) ∧
            after.zeroFilled = e.sink.zeroFilled +
              if Sink.hasPixels after.generation tile? then 0 else 1) ∧
      (config.mode = .synchronous → InTurn start moves → collect faultsBy start moves = [] →
        e.pulls = [] →
        e.sink.stats.zeroFilled = failures + (gone.length + kinds.count .busy) ∧
          (gone = [] → e.sink.stats.zeroFilled = failures) ∧
          ((∀ move ∈ moves, move.Spares) → e.sink.stats.zeroFilled = failures)) := by
  intro start e counts kinds fates gone failures
  have hsound : e.Sound := (sound_run hs moves).1
  have hledger : e.Ledger kinds fates gone := ledger_run hs ho
  have hzeros : e.sink.zeroFilled = zerosAmong (collect answeredBy start moves) :=
    zeroFilled_run hs moves
  refine ⟨length_kinds start moves, hledger.balanced hzeros, count_broken_run hs ho,
    fun generation cell => Cache.acquire_kind hsound.cache ho generation cell,
    fun id pull amid after next job? hf hserve => Sink.wrote_of_serve hsound.cache
      (hsound.onGrid _ (mem_of_lookup hf)) hserve, fun hmode hturn hfaults hpulls => ?_⟩
  obtain ⟨n, howes, hsum⟩ := owes_run hs hmode ho hturn hfaults
  obtain rfl : n = 0 := howes.of_pulls_nil hpulls
  change zerosAmong (collect answeredBy start moves) + 0 =
    kinds.countP Kind.isVain + fates.countP (· ≠ .completed) + gone.length at hsum
  rw [Kind.countP_isVain, Fate.countP_ne_completed] at hsum
  have hall : e.sink.stats.zeroFilled = failures + (gone.length + kinds.count .busy) := by
    show e.sink.zeroFilled = e.sink.cache.counters.computeFailures + _ +
      e.sink.cache.counters.allocationFailures + e.sink.cache.counters.exhausted + _
    rw [hzeros, hledger.computeFailures, hledger.allocationFailures, hledger.exhausted]
    omega
  have hnone : gone = [] → e.sink.stats.zeroFilled = failures := by
    intro hgone
    rw [hall, hgone, show kinds.count .busy = 0 from count_busy_run hs hmode ho hturn hfaults hgone]
    rfl
  exact ⟨hall, hnone, fun hspares => hnone (lost_eq_nil hs hspares)⟩

/-- Two cells; the call for the second one fails. -/
theorem statistics_run_narrow :
    ∃ s, Sink.create ⟨2, 1, 1, .uchar⟩ (Config.ofTileSize 1 1) false false = .ok s ∧
      let e := (ofSink s false).run
        [.openPull ⟨0, 0, 2, 1⟩ (.empty ⟨2, 1, 1, .uchar⟩) ⟨_, rfl, rfl⟩, .advance 0 0, .begin 1,
          .finish 1 .pattern, .advance 0 0, .advance 0 0, .begin 2,
          .finish 2 fun r => ⟨r, .failed (.compute r.valid "blocked")⟩, .advance 0 0, .advance 0 0]
      e.sink.stats.zeroFilled = 1 := by
  refine ⟨_, rfl, ?_⟩
  have h := (@statistics_run ⟨2, 1, 1, .uchar⟩ (Config.ofTileSize 1 1) false false _ rfl
    [.openPull ⟨0, 0, 2, 1⟩ (.empty ⟨2, 1, 1, .uchar⟩) ⟨_, rfl, rfl⟩, .advance 0 0, .begin 1,
      .finish 1 .pattern, .advance 0 0, .advance 0 0, .begin 2,
      .finish 2 fun r => ⟨r, .failed (.compute r.valid "blocked")⟩, .advance 0 0, .advance 0 0]
    rfl).2.2.2.2.2
  exact ((h rfl ⟨rfl, rfl, trivial, trivial, rfl, rfl, trivial, trivial, rfl, rfl, trivial⟩ rfl
    rfl).2.2 (by simp [Move.Spares])).trans rfl

end

end Engine

end TileCache
