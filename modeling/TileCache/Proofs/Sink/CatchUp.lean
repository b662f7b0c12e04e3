import TileCache.Proofs.Cache.Touring
import TileCache.Proofs.Sink.Repull

/-!
# The background catches up

In background mode a pull does not wait: where valid pixels are not at hand it leaves zeros and has
the cell computed.  Once the computations have ended, a second pull of the same rectangle finds all
of it, provided that the cells are no more than the tiles that the sink may have, and delivers what
a synchronous sink would have delivered at once.  Nothing is asked of the cache beforehand but that
nobody computes: there may be valid tiles and stale ones, on cells of the rectangle or elsewhere.

The computations may begin and end at any moment, also while the first pull goes on.

* `Tours` is the state of the engine meanwhile: the cells that the pull has asked for are on a tour
  of the cache (`Cache.Touring`), and all computations belong to the present generation.
* `Tours.work` and `Tours.turn` are the two kinds of moves, `Tours.turns` is a whole pull.
* `catchUp_run` puts the first pull, the computations and the second pull together.
-/

set_option autoImplicit false

namespace TileCache

/-- Is the move the beginning of a computation, or the end of one whose source draws the picture? -/
def Move.Works (picture : Picture) : Move → Prop
  | .begin _ => True
  | .finish _ source => source.Draws picture
  | .openPull _ _ _ | .advance _ _ | .dropPull _ | .drop _ | .invalidate | .detach | .shutdown =>
    False

/-- Is the move a step of this pull? -/
def Move.isTurn (pull : Nat) : Move → Bool
  | .advance id 0 => id == pull
  | _ => false

/-- Does the cell have a tile, either valid or in computation? -/
def Cache.Attends (c : Cache) (generation : Nat) (cell : Rect) : Prop :=
  ∃ (id : Nat) (t : Tile), c.index.find? cell.origin = some id ∧ c.tiles[id]? = some t ∧
    t.area = cell ∧ (t.state = .computing ∨ t.isValid generation = true)

/-- A computation in the background that leaves fresh pixels, if its source draws: nobody waits for
it, its buffer is in order, and if it has begun, it did so at the present generation. -/
structure Computation.Current (info : ImageInfo) (generation : Nat) (c : Computation) : Prop where
  travels : Engine.Travels info c.job
  client : c.client = .nobody
  present : ∀ beganAt, c.beganAt? = some beganAt → beganAt = generation

namespace Region

/-- A region in which each cell that was asked for has been answered, with the picture or with
zeros. -/
structure Answered (info : ImageInfo) (picture : Picture) (valid : Rect) (asked : List Rect)
    (out : Region) : Prop where
  isFor : out.IsFor info
  isWhole : out.IsWhole
  valid_eq : out.valid = valid
  answered : ∀ cell ∈ asked, out.ShowsIn picture cell ∨ out.BlankIn cell

/-- The answer for one more cell leaves those for the others alone. -/
theorem Answered.write {info : ImageInfo} {picture : Picture} {valid cell : Rect}
    {asked : List Rect} {out next : Region} (h : Answered info picture valid asked out)
    (hw : out.WrittenIn cell next) (hin : next.ShowsIn picture cell ∨ next.BlankIn cell)
    (hapart : ∀ other ∈ asked, ∀ x y, other.contains x y = true → cell.contains x y = false) :
    Answered info picture valid (cell :: asked) next where
  isFor := hw.isFor h.isFor
  isWhole := hw.isWhole
  valid_eq := hw.valid.trans h.valid_eq
  answered := by
    refine List.forall_mem_cons.2 ⟨hin, fun other ho => ?_⟩
    exact (h.answered other ho).imp (hw.showsIn (hapart other ho)) (hw.blankIn (hapart other ho))

end Region

namespace Engine

variable {info : ImageInfo} {picture : Picture} {generation since id : Nat}
  {asked rest : List Rect} {cell valid : Rect} {e d : Engine} {move : Move}

/-- A background sink at `generation` in which the cells `asked` were asked for since the clock
stood at `since`, and nothing else. -/
structure Tours (info : ImageInfo) (picture : Picture) (generation since : Nat)
    (asked : List Rect) (e : Engine) : Prop where
  sound : e.Sound
  mode : e.sink.config.mode = .background
  hasRuntime : e.hasRuntime = true
  depicts : e.sink.cache.Depicts info picture
  generation_eq : e.sink.generation = generation
  accounted : e.Accounted []
  current : ∀ nc ∈ e.computations, nc.2.Current info generation
  touring : e.sink.cache.Touring generation since asked

namespace Tours

/-- Other pulls do not matter. -/
theorem congr (h : e.Tours info picture generation since asked) (hd : d.Sound)
    (hsink : d.sink = e.sink) (hruntime : d.hasRuntime = e.hasRuntime)
    (hcomputations : d.computations = e.computations) :
    d.Tours info picture generation since asked where
  sound := hd
  mode := hsink ▸ h.mode
  hasRuntime := hruntime.trans h.hasRuntime
  depicts := hsink ▸ h.depicts
  generation_eq := hsink ▸ h.generation_eq
  accounted := by
    rw [Accounted, jobs, hsink, hcomputations]
    exact h.accounted
  current := hcomputations ▸ h.current
  touring := hsink ▸ h.touring

/-- A cell that was asked for is one of the grid. -/
theorem isCell (h : e.Tours info picture generation since asked) (hm : cell ∈ asked) :
    e.sink.cache.size.IsCell cell := by
  obtain ⟨n, t, ht, rfl, -⟩ := h.touring.stands cell hm
  exact h.sound.cache.onGrid n t ht

/-- When all computations have ended, valid pixels of all cells asked for are at hand. -/
theorem isCached (h : e.Tours info picture generation since asked) (hdone : e.computations = [])
    (hm : cell ∈ asked) : e.sink.cache.isCached e.sink.generation cell.origin = true := by
  rw [h.generation_eq]
  exact h.touring.isCached h.sound.cache (h.accounted.isIdle h.depicts.isOpen hdone)
    (h.isCell hm) hm

/-- Every cell that was asked for has a tile. -/
theorem attends (h : e.Tours info picture generation since asked) (hm : cell ∈ asked) :
    e.sink.cache.Attends e.sink.generation cell := by
  rw [h.generation_eq]
  obtain ⟨n, t, ht, rfl, -, hstate⟩ := h.touring.stands cell hm
  exact ⟨n, t, h.sound.cache.find? ht, ht, rfl, hstate⟩

/-! ## Computations -/

theorem begin (h : e.Tours info picture generation since asked) (id : Nat) :
    (e.begin id).Tours info picture generation since asked where
  sound := h.sound.step (.begin id)
  mode := h.mode
  hasRuntime := h.hasRuntime
  depicts := h.depicts
  generation_eq := h.generation_eq
  accounted := fun ho => jobs_begin e id ▸ h.accounted ho
  current := by
    intro nc hnc
    obtain ⟨⟨n, c⟩, hm, rfl⟩ := List.mem_map.1 hnc
    have hc := h.current _ hm
    dsimp only
    split
    · refine ⟨hc.travels, hc.client, fun beganAt hb => ?_⟩
      exact (Option.some.inj hb).symm.trans h.generation_eq
    · exact hc
  touring := h.touring

theorem finish (h : e.Tours info picture generation since asked) {source : Source}
    (hdraws : source.Draws picture) (id : Nat) :
    (e.step (.finish id source)).Tours info picture generation since asked ∧
      (e.step (.finish id source)).pulls = e.pulls ∧
      (e.step (.finish id source)).sink.cache.counters = e.sink.cache.counters := by
  have hsound := h.sound.step (.finish id source)
  have haccounted := h.accounted.step h.sound (.finish id source)
  cases hf : e.computations.lookup id with
  | none =>
    rw [step_finish_of_none source hf]
    exact ⟨h, rfl, rfl⟩
  | some c =>
    have hcurrent := h.current _ (mem_of_lookup hf)
    cases hb : c.beganAt? with
    | none =>
      rw [step_finish_of_queued source hf hb]
      exact ⟨h, rfl, rfl⟩
    | some beganAt =>
      obtain rfl := hcurrent.present beganAt hb
      have hwhole := h.sound.isWhole_job h.depicts hf hcurrent.travels
      obtain ⟨notified, painted, hstep⟩ := step_finish_of_draws hdraws hf hb hwhole
      obtain ⟨t, ht, hcomputing, ha⟩ := h.sound.exists_tile h.depicts.isOpen hf
      -- nobody waits for it
      rw [hcurrent.client, wake] at hstep
      rw [hstep] at hsound haccounted ⊢
      refine ⟨⟨hsound, h.mode, h.hasRuntime, ?_, h.generation_eq, haccounted, fun nc hnc =>
        h.current nc (mem_computations_forget hnc), ?_⟩, rfl, ?_⟩
      · exact h.depicts.complete hdraws hcurrent.travels ht ha beganAt
      · exact h.touring.complete h.depicts.isOpen ht hcomputing
          (hdraws.isStale_stamped hwhole beganAt)
      · exact Cache.counters_complete _ _ _

/-- **Computations may begin and end at any moment.** -/
theorem work (h : e.Tours info picture generation since asked) (hm : move.Works picture) :
    (e.step move).Tours info picture generation since asked ∧ (e.step move).pulls = e.pulls ∧
      (e.step move).sink.cache.counters = e.sink.cache.counters := by
  cases move with
  | begin id => exact ⟨h.begin id, rfl, rfl⟩
  | finish id source => exact h.finish hm id
  | openPull _ _ _ => cases hm
  | advance _ _ => cases hm
  | dropPull _ => cases hm
  | drop _ => cases hm
  | invalidate => cases hm
  | detach => cases hm
  | shutdown => cases hm

theorem works (h : e.Tours info picture generation since asked) {moves : List Move}
    (hm : ∀ move ∈ moves, move.Works picture) :
    (e.run moves).Tours info picture generation since asked := by
  induction moves generalizing e with
  | nil => exact h
  | cons move moves ih =>
    exact ih (h.work (hm move List.mem_cons_self)).1
      fun other ho => hm other (List.mem_cons_of_mem _ ho)

/-! ## Steps of the pull -/

/-- **A step of the pull answers the next cell, which goes on with the tour.** -/
theorem turn (h : e.Tours info picture generation since asked) {out : Region}
    (hf : e.pulls.lookup id = some ⟨out, cell :: rest, .nothing⟩)
    (ha : out.Answered info picture valid asked)
    (hne : (cell.intersect info.bounds).isEmpty = false)
    (hroom : ∀ limit, e.sink.cache.budget.limit? = some limit → asked.length < limit)
    (hnew : cell ∉ asked) :
    ∃ next, (e.step (.advance id 0)).Tours info picture generation since (cell :: asked) ∧
      (e.step (.advance id 0)).pulls.lookup id = some ⟨next, rest, .nothing⟩ ∧
      next.Answered info picture valid (cell :: asked) ∧
      (e.step (.advance id 0)).sink.cache.counters.exhausted =
        e.sink.cache.counters.exhausted := by
  have hcell : e.sink.cache.size.IsCell cell :=
    h.sound.onGrid _ (mem_of_lookup hf) cell (.inl List.mem_cons_self)
  obtain ⟨next, zeroFilled, hserve, hwritten, hin⟩ :=
    Sink.serve_in_background h.mode h.depicts hcell ha.isWhole ha.isFor rest
  obtain ⟨computations, nextId, hcarry, hcomputations⟩ := carryOn_eq (e.dropPull id) id .nobody
    (e.sink.serve ⟨out, cell :: rest, .nothing⟩ 0)
  have hstep : e.step (.advance id 0) = ((e.dropPull id).carryOn id .nobody
      (e.sink.serve ⟨out, cell :: rest, .nothing⟩ 0)).1 := by
    show (e.advance id 0).1 = _
    rw [Engine.advance, hf, clientOf, h.mode]
    rfl
  have hsound := h.sound.step (.advance id 0)
  have haccounted := h.accounted.step h.sound (.advance id 0)
  have hlost : e.lostBy (.advance id 0) = [] := by
    rw [lostBy, hf, h.hasRuntime]
    exact if_neg fun hn => Bool.false_ne_true hn.2
  rw [hlost] at haccounted
  obtain ⟨hgives, htouring⟩ := h.touring.acquire h.sound.cache h.sound.ordered h.depicts.isOpen
    h.depicts.isInfo h.depicts.suited hcell (allocatable_of_fits hne (h.depicts.fits cell hcell))
    hroom hnew
  rw [hserve] at hcarry hcomputations
  rw [hstep, hserve, hcarry] at hsound haccounted ⊢
  dsimp only at hsound haccounted ⊢
  have hgeneration := h.generation_eq
  subst hgeneration
  refine ⟨next, ⟨hsound, h.mode, h.hasRuntime, h.depicts.acquire _ hcell, rfl, haccounted, ?_,
    htouring⟩, List.lookup_cons_self, ha.write hwritten ?_ fun other ho x y hxy => ?_,
    (hgives.refusals h.sound.cache).1⟩
  · -- the job, if there is one, comes from a tile that is in order
    rcases hcomputations with rfl | ⟨job, hjob, rfl⟩
    · exact h.current
    · refine List.forall_mem_cons.2 ⟨⟨?_, rfl, fun _ hb => by cases hb⟩, h.current⟩
      cases hacq : e.sink.cache.acquire e.sink.generation cell with
      | mk c acquired =>
        rw [hacq] at hjob
        cases acquired with
        | compute job' =>
          obtain rfl : job' = job := Option.some.inj hjob
          exact h.depicts.travels hacq
        | ready _ => cases hjob
        | unavailable => cases hjob
        | broke _ => cases hjob
  · exact hin.imp (fun hshown => hshown.2.2) fun hblank => hblank.2.2
  · rw [Bool.eq_false_iff]
    intro hc
    exact hnew ((h.isCell ho).eq_of_contains hcell hxy hc ▸ ho)

/-- A whole pull, with computations that begin and end in between. -/
theorem turns (h : e.Tours info picture generation since asked) {out : Region}
    (hf : e.pulls.lookup id = some ⟨out, rest, .nothing⟩)
    (ha : out.Answered info picture valid asked)
    (hne : ∀ cell ∈ rest, (cell.intersect info.bounds).isEmpty = false)
    (hroom : ∀ limit, e.sink.cache.budget.limit? = some limit →
      rest.length + asked.length ≤ limit)
    (hnodup : (rest ++ asked).Nodup) {moves : List Move}
    (hm : ∀ move ∈ moves, move.isTurn id = true ∨ move.Works picture)
    (hcount : moves.countP (Move.isTurn id) = rest.length) :
    ∃ filled, (e.run moves).Tours info picture generation since (rest.reverse ++ asked) ∧
      (e.run moves).pulls.lookup id = some ⟨filled, [], .nothing⟩ ∧
      filled.Answered info picture valid (rest.reverse ++ asked) ∧
      (e.run moves).sink.cache.counters.exhausted = e.sink.cache.counters.exhausted := by
  induction moves generalizing e rest asked out with
  | nil =>
    obtain rfl : rest = [] := List.eq_nil_of_length_eq_zero hcount.symm
    exact ⟨out, h, hf, ha, rfl⟩
  | cons move moves ih =>
    have hm' := fun other ho => hm other (List.mem_cons_of_mem move ho)
    cases hturn : move.isTurn id with
    | true =>
      obtain rfl : move = .advance id 0 := by
        cases move with
        | advance n amid =>
          cases amid with
          | zero => rw [eq_of_beq hturn]
          | succ _ => cases hturn
        | openPull _ _ _ => cases hturn
        | dropPull _ => cases hturn
        | begin _ => cases hturn
        | finish _ _ => cases hturn
        | drop _ => cases hturn
        | invalidate => cases hturn
        | detach => cases hturn
        | shutdown => cases hturn
      rw [List.countP_cons_of_pos hturn] at hcount
      cases rest with
      | nil => cases hcount
      | cons cell rest =>
        rw [List.length_cons] at hcount hroom
        rw [List.cons_append, List.nodup_cons, List.mem_append, not_or] at hnodup
        obtain ⟨next, h', hf', ha', hexhausted⟩ := h.turn hf ha (hne cell List.mem_cons_self)
          (fun limit hl => Nat.lt_of_lt_of_le (by omega) (hroom limit hl)) hnodup.1.2
        obtain ⟨filled, hrun, hlookup, hanswered, hsame⟩ := ih h' hf' ha'
          (fun other ho => hne other (List.mem_cons_of_mem _ ho)) (fun limit hl => by
            rw [(SameBase.step h.sound _).budget] at hl
            have := hroom limit hl
            rw [List.length_cons]
            omega)
          (List.nodup_middle.2 (List.nodup_cons.2 ⟨by simpa using hnodup.1, hnodup.2⟩)) hm'
          (Nat.succ.inj hcount)
        rw [List.reverse_cons, List.append_assoc]
        exact ⟨filled, hrun, hlookup, hanswered, hsame.trans hexhausted⟩
    | false =>
      have hworks := (hm move List.mem_cons_self).resolve_left (by rw [hturn]; exact nofun)
      rw [List.countP_cons_of_neg (by rw [hturn]; exact nofun)] at hcount
      obtain ⟨h', hpulls, hcounters⟩ := h.work hworks
      obtain ⟨filled, hrun, hlookup, hanswered, hsame⟩ := ih h' (hpulls ▸ hf) ha hne
        (fun limit hl => hroom limit ((SameBase.step h.sound move).budget ▸ hl)) hnodup hm' hcount
      exact ⟨filled, hrun, hlookup, hanswered, hsame.trans (by rw [hcounters])⟩

/-- **The pull of a rectangle, from its beginning to its end.** -/
theorem pull (h : e.Tours info picture generation since []) {rect : Rect}
    (htouches : (rect.intersect info.bounds).isEmpty = false) (hrect : Fits info rect)
    (hroom : ∀ limit, e.sink.cache.budget.limit? = some limit →
      ((rect.intersect info.bounds).cells e.sink.size).length ≤ limit)
    {out : Region} (hout : out.IsFor info) :
    let cells := (rect.intersect info.bounds).cells e.sink.size
    ∃ begun, e.openPull rect out = .ok (begun, e.nextId) ∧
      ∀ turns : List Move, (∀ move ∈ turns, move.isTurn e.nextId = true ∨ move.Works picture) →
        turns.countP (Move.isTurn e.nextId) = cells.length →
        ∃ done first,
          (begun.run turns).advance e.nextId 0 = (done, some (.finished first), none) ∧
          first.Answered info picture (rect.intersect info.bounds) cells.reverse ∧
          done.Tours info picture generation since cells.reverse ∧
          done.sink.cache.counters.exhausted = e.sink.cache.counters.exhausted ∧
          done.sink.size = e.sink.size := by
  intro cells
  obtain ⟨buffer, hpull, hfilling⟩ := e.sink.exists_openPull picture hout htouches hrect
  have hbegun : e.openPull rect out = .ok ({ e with
      pulls := (e.nextId, ⟨buffer, cells, .nothing⟩) :: e.pulls
      nextId := e.nextId + 1 }, e.nextId) := by
    rw [Engine.openPull, hpull]
    rfl
  have hsound := h.sound.step (.openPull rect out ⟨info, hout⟩)
  rw [step_openPull_of_ok _ hbegun] at hsound
  refine ⟨_, hbegun, fun turns hturns hcount => ?_⟩
  obtain ⟨first, htours, hlookup, hanswered, hexhausted⟩ :=
    (h.congr hsound rfl rfl rfl).turns List.lookup_cons_self
      ⟨hfilling.isFor, hfilling.isWhole, hfilling.valid_eq, fun _ hm => absurd hm List.not_mem_nil⟩
      (fun cell hc => (Sink.touches_of_mem htouches hrect hc).2) hroom
      (by rw [List.append_nil]; exact Rect.nodup_cells _ _) hturns hcount
  rw [List.append_nil] at htours hanswered
  have hsize := (SameBase.run hsound turns).size
  generalize run _ turns = pulled at htours hlookup hexhausted hsize ⊢
  have hadvance : pulled.advance e.nextId 0 =
      (pulled.dropPull e.nextId, some (.finished first), none) := by
    rw [Engine.advance, hlookup]
    rfl
  refine ⟨_, first, hadvance, hanswered, htours.congr ?_ rfl rfl rfl, hexhausted, hsize⟩
  exact htours.sound.step (.dropPull e.nextId)

end Tours

/-! ## Runs -/

section

variable {config : Config} {hasRuntime withMask : Bool} {s : Sink} {past : List Move} {rect : Rect}

/-- Computations are under way only while tiles are being computed. -/
theorem Sound.computations_eq_nil (h : e.Sound) (ho : e.sink.cache.isOpen = true)
    (hidle : e.sink.cache.IsIdle) : e.computations = [] := by
  refine List.eq_nil_iff_forall_not_mem.2 fun nc hnc => ?_
  obtain ⟨t, ht, hc, -⟩ := (h.lends ho).isOut nc.2.job (List.mem_map.2 ⟨nc, hnc, rfl⟩)
  exact hidle _ t ht hc

/-- A tour can begin whenever nobody computes. -/
theorem tours_run (hs : Sink.create info config hasRuntime withMask = .ok s)
    (hmode : config.mode = .background) (hfits : ∀ cell, s.size.IsCell cell → Fits info cell)
    (hpast : AllDraw picture past)
    (hopen : ((ofSink s hasRuntime).run past).sink.cache.isOpen = true)
    (hruntime : ((ofSink s hasRuntime).run past).hasRuntime = true)
    (hidle : ((ofSink s hasRuntime).run past).sink.cache.IsIdle) :
    let e := (ofSink s hasRuntime).run past
    e.Tours info picture e.sink.generation e.sink.cache.clock [] := by
  intro e
  obtain ⟨hsound, hbase⟩ : e.Sound ∧ SameBase (ofSink s hasRuntime) e := sound_run hs past
  obtain ⟨size, budget, -, hconfig, -, -⟩ := create_eq_ok hs
  have hnone := hsound.computations_eq_nil hopen hidle
  refine ⟨hsound, ?_, hruntime, depicts_run hs hfits hpast hopen, rfl, ?_, ?_,
    Cache.Touring.begin hsound.ordered hidle _⟩
  · rw [hbase.config]
    exact (congrArg Config.mode hconfig).trans hmode
  · rw [Accounted, jobs, hnone]
    exact fun _ => Cache.isIdle_iff_accounts.1 hidle
  · rw [hnone]
    exact fun _ hnc => absurd hnc List.not_mem_nil

/-- What a synchronous sink delivers for a rectangle. -/
theorem exists_synchronous (hs : Sink.create info config hasRuntime withMask = .ok s)
    (hfits : ∀ cell, s.size.IsCell cell → Fits info cell) {source : Source}
    (hdraws : source.Draws picture) (htouches : (rect.intersect info.bounds).isEmpty = false)
    (hrect : Fits info rect) {out : Region} (hout : out.IsFor info) :
    ∃ s' after filled,
      Sink.create info { config with mode := .synchronous } hasRuntime withMask = .ok s' ∧
      s'.pull source rect out [] = .ok (after, .filled filled, []) ∧
      Sink.Filling info picture (rect.intersect info.bounds) [] filled := by
  obtain ⟨size, budget, hvalidate, -, -, hcache⟩ := create_eq_ok hs
  have hs' : Sink.create info { config with mode := .synchronous } hasRuntime withMask =
      .ok { config := { config with mode := .synchronous }, cache := .create info size budget
            generation := 0, attached := if withMask then 2 else 1, zeroFilled := 0 } := by
    have hv : Config.validate { config with mode := .synchronous } = .ok (size, budget) := hvalidate
    rw [Sink.create, hv]
    rfl
  have hsize : s.size = size := congrArg Cache.size hcache
  have hpast : AllDraw picture [] := allDraw_nil
  have hready := ready_run hs' rfl (fun cell hcell => hfits cell (hsize ▸ hcell)) hpast rfl
    (fun _ _ ht => by cases ht)
  obtain ⟨buffer, hb, -, -, hvalid⟩ := hout.exists_buffer htouches hrect
  obtain ⟨after, filled, hpull, -, -, hfilled⟩ := hready.pull hdraws hout hb []
  exact ⟨_, after, filled, hs', hpull, hvalid ▸ hfilled⟩

/-- **The background catches up.**  Take a background sink over sources that draw one picture, at
any point of any run where it is open, has its runtime, and nobody computes.  Let a rectangle have
no more cells than the sink may have tiles.  Then a pull of it, with computations that begin and end
at any moment meanwhile, comes to its end in as many steps as there are cells.  It answers each cell
with the picture or with zeros; no request finds all tiles in use; and each cell then has a tile
that is valid or in computation.  When all computations have ended, a second pull finds every cell
and computes nothing, answers none with zeros, and delivers the bytes that a synchronous sink
delivers. -/
theorem catchUp_run (hs : Sink.create info config hasRuntime withMask = .ok s)
    (hmode : config.mode = .background) (hfits : ∀ cell, s.size.IsCell cell → Fits info cell)
    (hpast : AllDraw picture past)
    (hopen : ((ofSink s hasRuntime).run past).sink.cache.isOpen = true)
    (hruntime : ((ofSink s hasRuntime).run past).hasRuntime = true)
    (hidle : ((ofSink s hasRuntime).run past).sink.cache.IsIdle)
    (htouches : (rect.intersect info.bounds).isEmpty = false) (hrect : Fits info rect)
    (hroom : ∀ limit, config.capacity = some limit →
      ((rect.intersect info.bounds).cells s.size).length ≤ limit)
    {out : Region} (hout : out.IsFor info) :
    let e := (ofSink s hasRuntime).run past
    let cells := (rect.intersect info.bounds).cells s.size
    ∃ begun id, e.openPull rect out = .ok (begun, id) ∧
      ∀ turns : List Move, (∀ move ∈ turns, move.isTurn id = true ∨ move.Works picture) →
        turns.countP (Move.isTurn id) = cells.length →
        ∃ done first, (begun.run turns).advance id 0 = (done, some (.finished first), none) ∧
          first.Answered info picture (rect.intersect info.bounds) cells ∧
          done.sink.cache.counters.exhausted = e.sink.cache.counters.exhausted ∧
          (∀ cell ∈ cells, done.sink.cache.Attends done.sink.generation cell) ∧
          ∀ works : List Move, (∀ move ∈ works, move.Works picture) →
            (done.run works).computations = [] → ∀ (source : Source) (again : Region),
            source.Draws picture → again.IsFor info →
            let before := (done.run works).sink
            ∃ after second synchronous last direct,
              before.pull source rect again [] = .ok (after, .filled second, []) ∧
              after.cache.counters = { before.cache.counters with
                hits := before.cache.counters.hits + cells.length } ∧
              after.zeroFilled = before.zeroFilled ∧
              Sink.create info { config with mode := .synchronous } hasRuntime withMask =
                .ok synchronous ∧
              synchronous.pull source rect again [] = .ok (last, .filled direct, []) ∧
              second.valid = direct.valid ∧ second.bytes = direct.bytes := by
  intro e cells
  have hsize : e.sink.size = s.size := (sound_run hs past).2.size
  have htours := tours_run hs hmode hfits hpast hopen hruntime hidle
  have hroom' : ∀ limit, e.sink.cache.budget.limit? = some limit →
      ((rect.intersect info.bounds).cells e.sink.size).length ≤ limit := by
    rw [hsize, limit?_run hs past]
    exact hroom
  obtain ⟨begun, hbegun, hpull⟩ := htours.pull htouches hrect hroom' hout
  refine ⟨begun, e.nextId, hbegun, fun turns hturns hcount => ?_⟩
  obtain ⟨done, first, hadvance, hfirst, hdone, hexhausted, hdoneSize⟩ :=
    hpull turns hturns (hsize ▸ hcount)
  have hasked : ∀ cell ∈ cells,
      cell ∈ ((rect.intersect info.bounds).cells e.sink.size).reverse := fun cell hc =>
    List.mem_reverse.2 (hsize ▸ hc)
  refine ⟨done, first, hadvance, ⟨hfirst.isFor, hfirst.isWhole, hfirst.valid_eq, fun cell hc =>
    hfirst.answered cell (hasked cell hc)⟩, hexhausted, fun cell hc =>
    hdone.attends (hasked cell hc), fun works hworks hnone source again hdraws hagain => ?_⟩
  -- the second pull, and a synchronous one to compare with
  have hafter := hdone.works hworks
  have hcells : (rect.intersect info.bounds).cells (done.run works).sink.size = cells := by
    have hrun : (done.run works).sink.size = done.sink.size :=
      (SameBase.run hdone.sound works).size
    rw [hrun, hdoneSize, hsize]
  obtain ⟨after, second, hsecond, hhits, hfilled⟩ := Sink.pull_of_cached source hafter.depicts
    htouches hrect (fun cell hc => hafter.isCached hnone (hasked cell (hcells ▸ hc))) hagain []
  obtain ⟨synchronous, last, direct, hcreate, hdirect, hfilled'⟩ :=
    exists_synchronous hs hfits hdraws htouches hrect hagain
  refine ⟨after, second, synchronous, last, direct, hsecond, ?_, ?_, hcreate, hdirect,
    hfilled.valid_eq.trans hfilled'.valid_eq.symm, hfilled'.bytes_eq hfilled⟩
  · rw [hhits.counters, hcells]
  · rw [hhits.same]

/-- Three cells and two tiles, which stand on the last two cells.  The pull of the first two cells
takes over first the tile of its own second cell, then the other one. -/
theorem catchUp_run_narrow :
    ∃ s begun done first after second,
      Sink.create ⟨3, 1, 1, .uchar⟩
        { Config.ofTileSize 1 1 with maxTiles := 2, mode := .background } true false = .ok s ∧
      ((ofSink s true).run [.openPull ⟨1, 0, 2, 1⟩ (.empty ⟨3, 1, 1, .uchar⟩) ⟨_, rfl, rfl⟩,
        .advance 0 0, .advance 0 0, .begin 1, .begin 2, .finish 1 .pattern,
        .finish 2 .pattern]).openPull ⟨0, 0, 2, 1⟩ (.empty ⟨3, 1, 1, .uchar⟩) = .ok (begun, 3) ∧
      (begun.run [.advance 3 0, .begin 4, .advance 3 0]).advance 3 0 =
        (done, some (.finished first), none) ∧
      let before := (done.run [.begin 5, .finish 5 .pattern, .finish 4 .pattern]).sink
      before.pull .pattern ⟨0, 0, 2, 1⟩ (.empty ⟨3, 1, 1, .uchar⟩) [] =
          .ok (after, .filled second, []) ∧
        after.cache.counters = { before.cache.counters with
          hits := before.cache.counters.hits + 2 } := by
  have hfits : ∀ cell, Fits ⟨3, 1, 1, .uchar⟩ cell := fits_of_bounds (by decide)
  have hpast : AllDraw Pattern.picture
      [.openPull ⟨1, 0, 2, 1⟩ (.empty ⟨3, 1, 1, .uchar⟩) ⟨_, rfl, rfl⟩, .advance 0 0,
        .advance 0 0, .begin 1, .begin 2, .finish 1 .pattern, .finish 2 .pattern] := by
    simp [draws_pattern]
  -- no job is out or lost, so nobody computes
  have hidle := Cache.isIdle_iff_accounts.2 (@accounted_run ⟨3, 1, 1, .uchar⟩
    { Config.ofTileSize 1 1 with maxTiles := 2, mode := .background } true false _ rfl
    [.openPull ⟨1, 0, 2, 1⟩ (.empty ⟨3, 1, 1, .uchar⟩) ⟨_, rfl, rfl⟩, .advance 0 0, .advance 0 0,
      .begin 1, .begin 2, .finish 1 .pattern, .finish 2 .pattern] rfl)
  obtain ⟨begun, id, hopen, hrest⟩ := @catchUp_run ⟨3, 1, 1, .uchar⟩ Pattern.picture
    { Config.ofTileSize 1 1 with maxTiles := 2, mode := .background } true false _ _ ⟨0, 0, 2, 1⟩
    rfl rfl (fun cell _ => hfits cell) hpast rfl rfl hidle rfl (hfits _)
    (fun limit hl => Option.some.inj hl ▸ Nat.le_refl 2) (.empty ⟨3, 1, 1, .uchar⟩) ⟨rfl, rfl⟩
  obtain ⟨hbegun, hid⟩ := Prod.mk.inj (Except.ok.inj hopen)
  obtain rfl : 3 = id := hid
  have hturns : ∀ move ∈ [.advance 3 0, .begin 4, .advance 3 0],
      Move.isTurn 3 move = true ∨ Move.Works Pattern.picture move := by
    simp [Move.isTurn, Move.Works]
  have hworks : ∀ move ∈ [.begin 5, .finish 5 .pattern, .finish 4 .pattern],
      Move.Works Pattern.picture move := by
    simp [Move.Works, draws_pattern]
  obtain ⟨done, first, hadvance, -, -, -, hafter⟩ := hrest _ hturns rfl
  have hdone : ((begun.run [.advance 3 0, .begin 4, .advance 3 0]).advance 3 0).1 = done :=
    congrArg Prod.fst hadvance
  obtain ⟨after, second, -, -, -, hsecond, hhits, -⟩ := hafter _ hworks
    (by rw [← hdone, ← hbegun]; rfl) .pattern (.empty ⟨3, 1, 1, .uchar⟩) draws_pattern ⟨rfl, rfl⟩
  exact ⟨_, begun, done, first, after, second, rfl, hopen, hadvance, hsecond, hhits⟩

end

end Engine

end TileCache
