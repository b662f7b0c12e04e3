import TileCache.Proofs.Cache.Lru
import TileCache.Proofs.Sink.Slots

/-!
# Pulls that come one at a time

A synchronous sink that serves one pull after the other behaves like the textbook list of cells
(`Lru`), whatever becomes of the computations and however often the image is invalidated.  The
requests of the pulls drive the list, those for cells that can have a buffer, and nothing else
does.

* `OneByOne` says of a run that it is of this kind, and `Serial` what the states of such a run look
  like: there is at most one pull, and at most one computation, which the pull waits for and whose
  tile is the one used last.
* `Orderly` is what one move does: it keeps that form, uses the cells that it requests, and takes
  them off the cells of the pull.  There is one lemma for each kind of move.
* `lru_run` puts the moves of a run together.
-/

set_option autoImplicit false

namespace TileCache

theorem Pull.isWaiting_wake (p : Pull) (painted : Bool) : (p.wake painted).isWaiting = false := by
  obtain ⟨out, cells, wait⟩ := p
  cases wait <;> rfl

/-- The fault with which a pull broke off, if it did. -/
def Turn.fault? : Turn → Option Fault
  | .broke fault => some fault
  | .moved | .waiting | .finished _ => none

namespace Engine

variable {e : Engine} {move : Move} {id : Nat} {info : ImageInfo}

/-! ## The form of a run -/

/-- May this move be made, if pulls come one at a time and are carried through? -/
def Allows (e : Engine) : Move → Prop
  | .openPull _ _ _ => e.pulls = []
  | .advance _ _ | .begin _ | .finish _ _ | .invalidate => True
  | .dropPull _ | .drop _ | .detach | .shutdown => False

/-- Do pulls come one at a time in this run? -/
def OneByOne (e : Engine) (moves : List Move) : Prop := Throughout Allows e moves

theorem OneByOne.spares {moves : List Move} (h : OneByOne e moves) :
    ∀ move ∈ moves, move.Spares := by
  refine h.forall fun e move hallows => ?_
  cases move with
  | drop _ => cases hallows
  | shutdown => cases hallows
  | openPull _ _ _ => trivial
  | advance _ _ => trivial
  | dropPull _ => trivial
  | begin _ => trivial
  | finish _ _ => trivial
  | invalidate => trivial
  | detach => trivial

/-- The cells that a move asks the cache for. -/
def requestedBy (e : Engine) : Move → List Rect
  | .advance id _ => ((e.pulls.lookup id).bind Pull.next?).toList
  | .openPull _ _ _ | .dropPull _ | .begin _ | .finish _ _ | .drop _ | .invalidate | .detach
  | .shutdown => []

/-- The cells of a pull that begins, row by row. -/
def openedBy (e : Engine) : Move → List Rect
  | .openPull rect out _ =>
    match out.buffer rect with
    | .ok out => out.valid.cells e.sink.size
    | .error _ => []
  | .advance _ _ | .dropPull _ | .begin _ | .finish _ _ | .drop _ | .invalidate | .detach
  | .shutdown => []

-- as for `step`, equation lemmas for `openedBy` would make Lean evaluate `Region.buffer`
theorem openedBy_of_ok {rect : Rect} {out out' : Region} (isRegion : ∃ info, out.IsFor info)
    (h : out.buffer rect = .ok out') :
    e.openedBy (.openPull rect out isRegion) = out'.valid.cells e.sink.size := by
  delta openedBy
  dsimp only
  rw [h]

theorem openedBy_of_error {rect : Rect} {out : Region} {setback : Setback}
    (isRegion : ∃ info, out.IsFor info) (h : out.buffer rect = .error setback) :
    e.openedBy (.openPull rect out isRegion) = [] := by
  delta openedBy
  dsimp only
  rw [h]

/-- The fault with which a pull breaks off. -/
def faultsBy (e : Engine) : Move → List Fault
  | .advance id amid => ((e.advance id amid).2.1.bind Turn.fault?).toList
  | .openPull _ _ _ | .dropPull _ | .begin _ | .finish _ _ | .drop _ | .invalidate | .detach
  | .shutdown => []

/-- The cells that the pulls under way have not asked for. -/
def remaining (e : Engine) : List Rect := e.pulls.flatMap fun np => np.2.cells

/-- What the states of such a run look like. -/
inductive Serial (e : Engine) : Prop
  | idle (pulls : e.pulls = []) (computations : e.computations = [])
  | going {id : Nat} {pull : Pull} (pulls : e.pulls = [(id, pull)])
      (awake : pull.isWaiting = false) (computations : e.computations = [])
  | waiting {id n : Nat} {pull : Pull} {c : Computation} (pulls : e.pulls = [(id, pull)])
      (asleep : pull.isWaiting = true) (computations : e.computations = [(n, c)])
      (client : c.client = .pull id) (latest : e.sink.cache.index.ids.head? = some c.job.tile)

/-- What a move does that takes `e` to `d`. -/
structure Orderly (info : ImageInfo) (e : Engine) (move : Move) (d : Engine) : Prop where
  serial : d.Serial
  isOpen : d.sink.cache.isOpen = e.sink.cache.isOpen
  lru : d.sink.cache.lru = ((e.requestedBy move).filter (Allocatable info)).foldl
    (Lru.use e.sink.cache.budget.limit?) e.sink.cache.lru
  cells : e.faultsBy move = [] →
    e.remaining ++ e.openedBy move = e.requestedBy move ++ d.remaining

/-- A move that asks for nothing leaves the list and the cells of the pull alone. -/
theorem orderly_of_no_request {d : Engine} (hr : e.requestedBy move = [])
    (ho : e.openedBy move = []) (serial : d.Serial)
    (isOpen : d.sink.cache.isOpen = e.sink.cache.isOpen)
    (lru : d.sink.cache.lru = e.sink.cache.lru) (cells : d.remaining = e.remaining) :
    Orderly info e move d where
  serial := serial
  isOpen := isOpen
  lru := by
    rw [hr]
    exact lru
  cells := fun _ => by rw [hr, ho, cells, List.append_nil, List.nil_append]

/-! ## Steps of the pull -/

/-- In synchronous mode a step that writes hands out no job. -/
theorem job?_of_due {s s' : Sink} {amid : Nat} {pull : Pull} {tile? : Option Tile} {cell : Rect}
    {cells : List Rect} {job? : Option Job} (hmode : s.config.mode = .synchronous)
    (due : s.Due amid pull s' tile? cell cells job?) : job? = none := by
  cases due with
  | background _ mode =>
    rw [hmode] at mode
    cases mode
  | woken => rfl
  | ready _ => rfl
  | unavailable _ => rfl

/-- One request is one use, if the cell can have a buffer. -/
theorem lru_acquire {c : Cache} (hw : c.WellFormed) (ho : c.isOpen = true) (hidle : c.IsIdle)
    (hinfo : c.info = info) (hsuited : c.All (Suited info)) {cell : Rect}
    (hcell : c.size.IsCell cell) (generation : Nat) :
    (c.acquire generation cell).1.lru =
      ([cell].filter (Allocatable info)).foldl (Lru.use c.budget.limit?) c.lru := by
  rcases Cache.acquire_of_isIdle hw ho hidle hinfo hsuited hcell generation with
    ⟨hok, hgives⟩ | ⟨setback, hno, hsame⟩
  · rw [List.filter_cons_of_pos hok]
    exact hgives.lru hw hidle hcell
  · rw [List.filter_cons_of_neg (by simp [allocatable_of_buffer_error hno]), hsame]
    cases setback <;> rfl

/-- What a step of the only pull leaves in the cache. -/
theorem lru_of_serving (hs : e.Sound) (ho : e.sink.cache.isOpen = true)
    (hidle : e.sink.cache.IsIdle) (hinfo : e.sink.cache.info = info)
    (hsuited : e.sink.cache.All (Suited info)) {amid : Nat} {pull : Pull}
    {r : Sink × Served × Option Job}
    (hg : ∀ cell, Sink.IsDue pull cell → e.sink.cache.size.IsCell cell)
    (serving : e.sink.Serving amid pull r) :
    r.1.cache.isOpen = e.sink.cache.isOpen ∧
      r.1.cache.lru = (pull.next?.toList.filter (Allocatable info)).foldl
        (Lru.use e.sink.cache.budget.limit?) e.sink.cache.lru := by
  refine ⟨(hs.asks hg serving.asks).2.2.1.isOpen, ?_⟩
  rcases serving.asks with ⟨hn, hcache, -⟩ | ⟨cell, acquired, hn, hacq, -⟩
  · rw [hn, hcache]
    rfl
  · have hcache : r.1.cache = (e.sink.cache.acquire e.sink.generation cell).1 := by rw [hacq]
    rw [hn, hcache]
    exact lru_acquire hs.cache ho hidle hinfo hsuited (hg cell (.inl (Pull.mem_of_next? hn)))
      e.sink.generation

theorem dropPull_of_single {pull : Pull} (hp : e.pulls = [(id, pull)]) :
    (e.dropPull id).pulls = [] := by
  rw [dropPull, hp, List.eraseP_cons_of_pos (by simp)]

theorem remaining_of_single {pull : Pull} (hp : e.pulls = [(id, pull)]) :
    e.remaining = pull.cells := by
  rw [remaining, hp, List.flatMap_singleton]

/-- A pull that has come to its end goes. -/
theorem orderly_advance_of_isDone (hc : e.computations = []) {pull : Pull}
    (hp : e.pulls = [(id, pull)]) (hdone : pull.isDone = true) (amid : Nat) :
    Orderly info e (.advance id amid) (e.step (.advance id amid)) := by
  have hf : e.pulls.lookup id = some pull := by rw [hp, List.lookup_cons_self]
  have hrest := dropPull_of_single hp
  have hstep : e.step (.advance id amid) = e.dropPull id := by
    show (e.advance id amid).1 = _
    rw [advance, hf]
    simp only [hdone, if_true]
  have hcells : pull.cells = [] ∧ pull.next? = none := by
    obtain ⟨out, cells, wait⟩ := pull
    cases cells with
    | cons cell cells => cases hdone
    | nil => cases wait <;> exact ⟨rfl, rfl⟩
  rw [hstep]
  refine orderly_of_no_request ?_ rfl (.idle hrest hc) rfl rfl ?_
  · rw [requestedBy, hf, Option.bind_some, hcells.2]
    rfl
  · rw [remaining_of_single hp, hcells.1, remaining, hrest, List.flatMap_nil]

/-- After a step of the only pull, this goes on, waits for the job that it has just handed out, or
has broken off. -/
theorem serial_carryOn (hw : e.sink.cache.WellFormed) (hmode : e.sink.config.mode = .synchronous)
    (hc : e.computations = []) {pull : Pull} (hp : e.pulls = [(id, pull)])
    (hg : ∀ cell, Sink.IsDue pull cell → e.sink.cache.size.IsCell cell)
    (hawake : pull.isWaiting = false) (hdone : pull.isDone = false) {amid : Nat}
    {r : Sink × Served × Option Job} (serving : e.sink.Serving amid pull r) :
    let d := (e.dropPull id).carryOn id (.pull id) r
    d.1.Serial ∧ ((d.2.1.bind Turn.fault?).toList = [] →
      pull.cells = pull.next?.toList ++ d.1.remaining) := by
  intro d
  have hrest := dropPull_of_single hp
  have wrote : ∀ {s s' : Sink} {tile? : Option Tile} {cell : Rect} {cells : List Rect}
      {job? : Option Job} (out : Region), e.sink.Due amid pull s' tile? cell cells job? →
      ((e.dropPull id).carryOn id (.pull id) (s, .went ⟨out, cells, .nothing⟩, job?)).1.Serial ∧
        pull.cells = pull.next?.toList ++ ((e.dropPull id).carryOn id (.pull id)
          (s, .went ⟨out, cells, .nothing⟩, job?)).1.remaining := by
    intro s s' tile? cell cells job? out due
    obtain rfl := job?_of_due hmode due
    have hpulls : ((e.dropPull id).carryOn id (.pull id)
        (s, .went ⟨out, cells, .nothing⟩, none)).1.pulls = [(id, ⟨out, cells, .nothing⟩)] :=
      congrArg (List.cons _) hrest
    refine ⟨.going hpulls rfl hc, ?_⟩
    rw [remaining_of_single hpulls]
    exact due.cells_eq
  cases serving with
  | idle rests =>
    rw [hawake, hdone] at rests
    exact absurd rests (by simp)
  | @waits out cells cell c job asked mode =>
    have hpulls : ((e.dropPull id).carryOn id (.pull id)
        (e.sink.after c amid, .went ⟨out, cells, .computing job.tile cell⟩, some job)).1.pulls =
          [(id, ⟨out, cells, .computing job.tile cell⟩)] :=
      congrArg (List.cons _) hrest
    refine ⟨.waiting hpulls rfl (congrArg (List.cons _) hc) rfl ?_, fun _ => ?_⟩
    · exact Cache.head?_of_compute hw (hg cell (.inl List.mem_cons_self)) asked
    · rw [remaining_of_single hpulls]
      rfl
  | zeroed due _ =>
    obtain ⟨hserial, hcells⟩ := wrote _ due
    exact ⟨hserial, fun _ => hcells⟩
  | copied due _ _ _ =>
    obtain ⟨hserial, hcells⟩ := wrote _ due
    exact ⟨hserial, fun _ => hcells⟩
  | broke due =>
    obtain rfl := job?_of_due hmode due
    refine ⟨.idle hrest hc, fun hn => ?_⟩
    cases hn
  | stopped _ =>
    refine ⟨.idle hrest hc, fun hn => ?_⟩
    cases hn

/-- A pull that is not waiting makes a step. -/
theorem orderly_advance (hs : e.Sound) (hmode : e.sink.config.mode = .synchronous)
    (ho : e.sink.cache.isOpen = true) (hidle : e.sink.cache.IsIdle)
    (hinfo : e.sink.cache.info = info) (hsuited : e.sink.cache.All (Suited info)) {pull : Pull}
    (hp : e.pulls = [(id, pull)]) (hawake : pull.isWaiting = false) (hc : e.computations = [])
    (amid : Nat) : Orderly info e (.advance id amid) (e.step (.advance id amid)) := by
  have hf : e.pulls.lookup id = some pull := by rw [hp, List.lookup_cons_self]
  have hg : ∀ cell, Sink.IsDue pull cell → e.sink.cache.size.IsCell cell :=
    hs.onGrid _ (mem_of_lookup hf)
  cases hdone : pull.isDone with
  | true => exact orderly_advance_of_isDone hc hp hdone amid
  | false =>
    have serving := Sink.serving e.sink pull amid
    have hclient : e.clientOf id = .pull id := by rw [clientOf, hmode]
    have hadvance : e.advance id amid =
        (e.dropPull id).carryOn id (.pull id) (e.sink.serve pull amid) := by
      rw [advance, hf, ← hclient]
      simp only [hdone, Bool.false_eq_true, if_false]
    have hstep : e.step (.advance id amid) = (e.advance id amid).1 := rfl
    have hrequest : e.requestedBy (.advance id amid) = pull.next?.toList := by
      rw [requestedBy, hf, Option.bind_some]
    obtain ⟨hopen, hlru⟩ := lru_of_serving hs ho hidle hinfo hsuited hg serving
    obtain ⟨hserial, hcells⟩ := serial_carryOn hs.cache hmode hc hp hg hawake hdone serving
    rw [hstep, hadvance]
    refine ⟨hserial, ?_, ?_, fun hn => ?_⟩
    · rw [sink_carryOn]
      exact hopen
    · rw [sink_carryOn, hrequest]
      exact hlru
    · rw [faultsBy, hadvance] at hn
      rw [remaining_of_single hp, hrequest, ← hcells hn]
      exact List.append_nil _

/-- A pull that waits stays as it is. -/
theorem orderly_advance_waiting {pull : Pull} (hp : e.pulls = [(id, pull)])
    (hasleep : pull.isWaiting = true) (h : e.Serial) (amid : Nat) :
    Orderly info e (.advance id amid) (e.step (.advance id amid)) := by
  have hf : e.pulls.lookup id = some pull := by rw [hp, List.lookup_cons_self]
  obtain ⟨out, cells, wait⟩ := pull
  cases wait with
  | nothing => cases hasleep
  | computed _ _ _ => cases hasleep
  | computing tile cell =>
    have hdone : Pull.isDone ⟨out, cells, .computing tile cell⟩ = false := by
      cases cells <;> rfl
    have hstep : e.step (.advance id amid) = e := by
      show (e.advance id amid).1 = e
      rw [advance, hf]
      simp only [hdone, Bool.false_eq_true, if_false]
      show { e with pulls := (id, _) :: (e.dropPull id).pulls } = e
      rw [dropPull_of_single hp, ← hp]
    rw [hstep]
    refine orderly_of_no_request ?_ rfl h rfl rfl rfl
    rw [requestedBy, hf, Option.bind_some]
    cases cells <;> rfl

/-- Nobody is there to make a step. -/
theorem orderly_advance_of_none (hf : e.pulls.lookup id = none) (h : e.Serial) (amid : Nat) :
    Orderly info e (.advance id amid) (e.step (.advance id amid)) := by
  have hstep : e.step (.advance id amid) = e := by
    show (e.advance id amid).1 = e
    rw [advance, hf]
  rw [hstep]
  refine orderly_of_no_request ?_ rfl h rfl rfl rfl
  rw [requestedBy, hf]
  rfl

/-! ## Other moves -/

theorem orderly_openPull (h : e.Serial) (hp : e.pulls = []) {rect : Rect} {out : Region}
    (hr : ∃ info, out.IsFor info) :
    Orderly info e (.openPull rect out hr) (e.step (.openPull rect out hr)) := by
  have hc : e.computations = [] := by
    cases h with
    | idle _ hc => exact hc
    | going hp' _ _ => cases hp.symm.trans hp'
    | waiting hp' _ _ _ _ => cases hp.symm.trans hp'
  cases hb : out.buffer rect with
  | error error =>
    have ho : e.openPull rect out = .error error := by
      rw [Engine.openPull, Sink.openPull, hb]
      rfl
    rw [step_openPull_of_error hr ho]
    exact orderly_of_no_request rfl (openedBy_of_error hr hb) h rfl rfl rfl
  | ok out' =>
    have ho : e.openPull rect out = .ok ({ e with
        pulls := (e.nextId, ⟨out', out'.valid.cells e.sink.size, .nothing⟩) :: e.pulls
        nextId := e.nextId + 1 }, e.nextId) := by
      rw [Engine.openPull, Sink.openPull, hb]
      rfl
    rw [step_openPull_of_ok hr ho, hp]
    refine ⟨.going rfl rfl hc, rfl, rfl, fun _ => ?_⟩
    rw [remaining, hp, openedBy_of_ok hr hb]
    exact (List.append_nil _).symm

theorem orderly_begin (h : e.Serial) (id : Nat) :
    Orderly info e (.begin id) (e.step (.begin id)) := by
  refine orderly_of_no_request rfl rfl ?_ rfl rfl rfl
  show (e.begin id).Serial
  cases h with
  | idle hp hc => exact .idle hp (by rw [begin, hc]; rfl)
  | going hp hawake hc => exact .going hp hawake (by rw [begin, hc]; rfl)
  | @waiting p n pull c hp hasleep hc hclient hlatest =>
    have hmap : (e.begin id).computations = [if n = id ∧ c.beganAt? = none then
        (n, { c with beganAt? := some e.sink.generation }) else (n, c)] := by
      rw [begin, hc]
      rfl
    by_cases hn : n = id ∧ c.beganAt? = none
    · rw [if_pos hn] at hmap
      exact .waiting hp hasleep hmap hclient hlatest
    · rw [if_neg hn] at hmap
      exact .waiting hp hasleep hmap hclient hlatest

/-- The end of the call that a pull waits for.  The tile, painted or not, is still the one used
last. -/
theorem step_finish_of_pull (hw : e.sink.cache.WellFormed) (source : Source) {c : Computation}
    {p beganAt : Nat} (hf : e.computations.lookup id = some c) (hb : c.beganAt? = some beganAt)
    (hclient : c.client = .pull p) (hlatest : e.sink.cache.index.ids.head? = some c.job.tile) :
    ∃ cache painted, cache.isOpen = e.sink.cache.isOpen ∧ cache.lru = e.sink.cache.lru ∧
      e.step (.finish id source) =
        wake { e.forget id with sink := { e.sink with cache } } (.pull p) painted := by
  have hnobody : ∀ q : Prop, ¬(c.client = .nobody ∧ q) := by
    rintro q ⟨hn, -⟩
    rw [hclient] at hn
    cases hn
  rw [step_finish_of_some source hf, finish, hf, ← hclient]
  simp only [hb]
  rw [if_neg (hnobody _)]
  rcases settle_eq e.sink c.job beganAt (source c.job.region) with ⟨succeeded, -, hs⟩ | ⟨-, hs⟩
  · exact ⟨_, _, (Cache.sameSetting_complete _ _ _ _).isOpen,
      Cache.lru_complete hw hlatest _ succeeded, by rw [hs]⟩
  · exact ⟨_, _, (Cache.sameSetting_abandon _ _ _).isOpen, Cache.lru_abandon hw _ _, by rw [hs]⟩

/-- The pull that waits goes on when its call ends, with the cells that it had. -/
theorem orderly_finish_of_pull (hw : e.sink.cache.WellFormed) (source : Source) {c : Computation}
    {p beganAt : Nat} {pull : Pull} (hp : e.pulls = [(p, pull)]) (hc : e.computations = [(id, c)])
    (hb : c.beganAt? = some beganAt) (hclient : c.client = .pull p)
    (hlatest : e.sink.cache.index.ids.head? = some c.job.tile) :
    Orderly info e (.finish id source) (e.step (.finish id source)) := by
  have hf : e.computations.lookup id = some c := by rw [hc, List.lookup_cons_self]
  obtain ⟨cache, painted, hopen, hlru, hstep⟩ :=
    step_finish_of_pull hw source hf hb hclient hlatest
  have hforget : (e.forget id).computations = [] := by
    rw [forget, hc, List.eraseP_cons_of_pos (by simp)]
  have hpulls : (e.step (.finish id source)).pulls = [(p, pull.wake painted)] := by
    rw [hstep]
    show e.pulls.map _ = _
    rw [hp, List.map_singleton]
    dsimp only
    rw [if_pos rfl]
  refine orderly_of_no_request rfl rfl (.going hpulls (pull.isWaiting_wake painted) ?_) ?_ ?_ ?_
  · rw [hstep]
    exact hforget
  · rw [hstep]
    exact hopen
  · rw [hstep]
    exact hlru
  · rw [remaining_of_single hpulls, remaining_of_single hp, pull.cells_wake]

/-- The end of any other call changes nothing. -/
theorem orderly_finish (hw : e.sink.cache.WellFormed) (h : e.Serial) (id : Nat)
    (source : Source) : Orderly info e (.finish id source) (e.step (.finish id source)) := by
  have same : e.step (.finish id source) = e →
      Orderly info e (.finish id source) (e.step (.finish id source)) := by
    intro hstep
    rw [hstep]
    exact orderly_of_no_request rfl rfl h rfl rfl rfl
  cases hf : e.computations.lookup id with
  | none => exact same (step_finish_of_none source hf)
  | some c =>
    cases hb : c.beganAt? with
    | none =>
      refine same ?_
      rw [step_finish_of_some source hf, finish, hf]
      simp only [hb]
    | some beganAt =>
      have hmem := mem_of_lookup hf
      cases h with
      | idle _ hc =>
        rw [hc] at hmem
        cases hmem
      | going _ _ hc =>
        rw [hc] at hmem
        cases hmem
      | waiting hp _ hc hclient hlatest =>
        rw [hc, List.mem_singleton] at hmem
        obtain ⟨rfl, rfl⟩ := Prod.mk.inj hmem
        exact orderly_finish_of_pull hw source hp hc hb hclient hlatest

/-- **Every move of pulls that come one at a time is orderly.** -/
theorem orderly_step (hs : e.Sound) (hmode : e.sink.config.mode = .synchronous)
    (ho : e.sink.cache.isOpen = true) (haccounted : e.Accounted [])
    (hinfo : e.sink.cache.info = info) (hsuited : e.sink.cache.All (Suited info))
    (hallows : e.Allows move) (h : e.Serial) : Orderly info e move (e.step move) := by
  cases move with
  | openPull rect out hr => exact orderly_openPull h hallows hr
  | advance id amid =>
    have lookup_ne : ∀ {n : Nat} {pull : Pull}, e.pulls = [(n, pull)] → n ≠ id →
        e.pulls.lookup id = none := by
      intro n pull hp hn
      rw [hp, List.lookup_cons, beq_eq_false_iff_ne.2 hn.symm]
      rfl
    cases h with
    | idle hp hc => exact orderly_advance_of_none (by rw [hp]; rfl) (.idle hp hc) amid
    | @going n pull hp hawake hc =>
      by_cases hn : n = id
      · subst hn
        exact orderly_advance hs hmode ho (haccounted.isIdle ho hc) hinfo hsuited hp hawake hc amid
      · exact orderly_advance_of_none (lookup_ne hp hn) (.going hp hawake hc) amid
    | @waiting n _ pull _ hp hasleep hc hclient hlatest =>
      by_cases hn : n = id
      · subst hn
        exact orderly_advance_waiting hp hasleep (.waiting hp hasleep hc hclient hlatest) amid
      · exact orderly_advance_of_none (lookup_ne hp hn)
          (.waiting hp hasleep hc hclient hlatest) amid
  | begin id => exact orderly_begin h id
  | finish id source => exact orderly_finish hs.cache h id source
  | invalidate =>
    refine orderly_of_no_request rfl rfl ?_ rfl rfl rfl
    cases h with
    | idle hp hc => exact .idle hp hc
    | going hp hawake hc => exact .going hp hawake hc
    | waiting hp hasleep hc hclient hlatest => exact .waiting hp hasleep hc hclient hlatest
  | dropPull id => cases hallows
  | drop id => cases hallows
  | detach => cases hallows
  | shutdown => cases hallows

/-! ## Runs -/

section

variable {config : Config} {hasRuntime withMask : Bool} {s : Sink} {moves : List Move}

/-- How far the requests of the run have come. -/
theorem serial_run (hs : Sink.create info config hasRuntime withMask = .ok s)
    (hmode : config.mode = .synchronous) (hone : OneByOne (ofSink s hasRuntime) moves)
    (hk : KeepImages moves) :
    let e := (ofSink s hasRuntime).run moves
    let requests := collect requestedBy (ofSink s hasRuntime) moves
    e.Serial ∧ e.sink.cache.isOpen = true ∧
      e.sink.cache.lru =
        (requests.filter (Allocatable info)).foldl (Lru.use config.capacity) .empty ∧
      (collect faultsBy (ofSink s hasRuntime) moves = [] →
        collect openedBy (ofSink s hasRuntime) moves = requests ++ e.remaining) := by
  obtain ⟨size, budget, hv, hconfig, -, hcache⟩ := create_eq_ok hs
  induction moves using List.reverseRecOn with
  | nil =>
    refine ⟨.idle rfl rfl, congrArg Cache.isOpen hcache, ?_, fun _ => rfl⟩
    show s.cache.lru = _
    rw [hcache]
    rfl
  | append_singleton moves move ih =>
    obtain ⟨hbefore, hallows⟩ : OneByOne _ _ ∧ _ := throughout_concat.1 hone
    obtain ⟨hserial, hopen, hlru, hcells⟩ := ih hbefore hk.of_append
    obtain ⟨hsound, hbase⟩ := sound_run hs moves
    have hmode' : ((ofSink s hasRuntime).run moves).sink.config.mode = .synchronous := by
      rw [hbase.config]
      exact (congrArg Config.mode hconfig).trans hmode
    have hlimit := limit?_run hs moves
    have haccounted := accounted_run hs moves
    rw [lost_eq_nil hs hbefore.spares] at haccounted
    have hstep := orderly_step hsound hmode' hopen haccounted (info_run hs moves)
      (suited_run hs hk.of_append).tiles hallows hserial
    rw [run_concat, collect_concat, collect_concat, collect_concat]
    refine ⟨hstep.serial, hstep.isOpen.trans hopen, ?_, fun hfaults => ?_⟩
    · rw [hstep.lru, hlru, hlimit, List.filter_append, List.foldl_append]
    · obtain ⟨hfaults, hfault⟩ := List.append_eq_nil_iff.1 hfaults
      rw [hcells hfaults, List.append_assoc, hstep.cells hfault, List.append_assoc]

/-- **The cache is a textbook list.**  Let pulls come one at a time to a synchronous sink, with
calls of sources that succeed, fail or break off, and with invalidations at any moment.  Take the
cells that the pulls have asked for, in this order and as far as they can have a buffer, and use
them one after the other in an empty textbook list with the capacity of the sink.  Then the tiles
of the sink, the most recently used first, stand on the cells of that list, and there were as many
evictions as the list dropped cells.  Between pulls, the cells asked for are all cells of the pulls
so far, row by row, if none of them broke off. -/
theorem lru_run (hs : Sink.create info config hasRuntime withMask = .ok s)
    (hmode : config.mode = .synchronous) (hone : OneByOne (ofSink s hasRuntime) moves)
    (hk : KeepImages moves) :
    let e := (ofSink s hasRuntime).run moves
    let requests := collect requestedBy (ofSink s hasRuntime) moves
    let used := (requests.filter (Allocatable info)).foldl (Lru.use config.capacity) .empty
    e.sink.tiles.map (·.area) = used.cells ∧
      e.sink.stats.tiles = used.cells.length ∧
      e.sink.stats.counters.evictions = used.dropped ∧
      (e.pulls = [] → collect faultsBy (ofSink s hasRuntime) moves = [] →
        requests = collect openedBy (ofSink s hasRuntime) moves) := by
  intro e requests used
  obtain ⟨-, -, hlru, hcells⟩ := serial_run hs hmode hone hk
  have hlru : e.sink.cache.lru = used := hlru
  refine ⟨?_, ?_, ?_, fun hp hfaults => ?_⟩
  · rw [← hlru, Sink.tiles, List.map_map]
    rfl
  · rw [← hlru, Cache.length_lru (sound_run hs moves).1.cache]
    rfl
  · rw [← hlru]
    rfl
  · have hall := hcells hfaults
    have hnone : e.remaining = [] := by rw [remaining, hp, List.flatMap_nil]
    rw [show ((ofSink s hasRuntime).run moves).remaining = [] from hnone, List.append_nil] at hall
    exact hall.symm

/-- Three cells and two tiles.  The image is invalidated while the second cell is computed, and that
call breaks off; the third cell takes over the tile of the first. -/
theorem lru_run_narrow :
    ∃ s, Sink.create ⟨3, 1, 1, .uchar⟩ { Config.ofTileSize 1 1 with maxTiles := 2 } true false =
        .ok s ∧
      let e := (ofSink s true).run
        [.openPull ⟨0, 0, 3, 1⟩ (.empty ⟨3, 1, 1, .uchar⟩) ⟨_, rfl, rfl⟩, .advance 0 0, .begin 1,
          .finish 1 .pattern, .advance 0 0, .advance 0 0, .begin 2, .invalidate,
          .finish 2 fun r => ⟨r, .broken⟩, .advance 0 0, .advance 0 0, .begin 3,
          .finish 3 .pattern, .advance 0 0, .advance 0 0]
      e.sink.tiles.map (·.area) = [⟨2, 0, 1, 1⟩, ⟨1, 0, 1, 1⟩] ∧
        e.sink.stats.counters.evictions = 1 := by
  refine ⟨_, rfl, ?_⟩
  have hk : KeepImages [.openPull ⟨0, 0, 3, 1⟩ (.empty ⟨3, 1, 1, .uchar⟩) ⟨_, rfl, rfl⟩,
      .advance 0 0, .begin 1, .finish 1 .pattern, .advance 0 0, .advance 0 0, .begin 2, .invalidate,
      .finish 2 fun r => ⟨r, .broken⟩, .advance 0 0, .advance 0 0, .begin 3, .finish 3 .pattern,
      .advance 0 0, .advance 0 0] := by
    intro n source hm
    have hs : source = .pattern ∨ source = fun r => ⟨r, .broken⟩ := by
      rcases (by simpa using hm : _ ∨ _ ∨ _) with h | h | h
      · exact .inl h.2
      · exact .inr h.2
      · exact .inl h.2
    rcases hs with rfl | rfl
    · exact keepsFrame_pattern.keepsImage
    · exact fun _ _ hr => hr
  have hrun := fun hone => @lru_run ⟨3, 1, 1, .uchar⟩ { Config.ofTileSize 1 1 with maxTiles := 2 }
    true false _ _ rfl rfl hone hk
  have h := hrun ⟨rfl, trivial, trivial, trivial, trivial, trivial, trivial, trivial, trivial,
    trivial, trivial, trivial, trivial, trivial, trivial, trivial⟩
  exact ⟨h.1.trans rfl, h.2.2.1.trans rfl⟩

end

end Engine

end TileCache
