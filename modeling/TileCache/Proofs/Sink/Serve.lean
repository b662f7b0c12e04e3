import TileCache.Proofs.Cache.Acquire
import TileCache.Sink.Pull

/-!
# All that a step of a pull can do

`Sink.serve` looks for a tile first and writes afterwards.  `Due` lists the ways in which a step
comes to the point where it writes a cell, with the sink as it is at that moment and the tile that
it looks at.  `Serving` lists what a step can do: nothing, wait for a computation that it has just
handed out, or write the cell that is due, with zeros (`zeroed`) or with the pixels of the tile
(`copied`).  Writing may also break off.

`serving` shows that there is nothing else, and `Due.tile_area` that the tile is always one of the
cache that stands on the cell.
-/

set_option autoImplicit false

namespace TileCache

/-- The cell that a step of the pull would ask for. -/
def Pull.next? (p : Pull) : Option Rect :=
  match p.wait, p.cells with
  | .nothing, cell :: _ => some cell
  | _, _ => none

theorem Pull.mem_of_next? {p : Pull} {cell : Rect} (h : p.next? = some cell) :
    cell ∈ p.cells := by
  obtain ⟨out, cells, wait⟩ := p
  cases wait with
  | nothing =>
    cases cells with
    | nil => cases h
    | cons first cells =>
      obtain rfl := Option.some.inj h
      exact List.mem_cons_self
  | computing _ _ => cases h
  | computed _ _ _ => cases h

/-- A pull that has written everything asks for nothing more. -/
theorem Pull.next?_of_isDone {p : Pull} (h : p.isDone = true) : p.next? = none := by
  obtain ⟨out, cells, wait⟩ := p
  cases cells with
  | cons cell cells => cases h
  | nil => cases wait <;> rfl

theorem Pull.cells_wake (p : Pull) (painted : Bool) : (p.wake painted).cells = p.cells := by
  obtain ⟨out, cells, wait⟩ := p
  cases wait <;> rfl

namespace Sink

/-- The sink after a request that left the cache as `d`, and after `amid` invalidations. -/
def after (s : Sink) (d : Cache) (amid : Nat) : Sink :=
  { s with cache := d, generation := s.generation + amid }

/-- `Due s amid pull s' tile? cell cells job?`: a step of `pull` comes to the point where it writes
`cell`.  The sink is then `s'`, the step looks at `tile?`, the cells after this one are `cells`, and
`job?` was handed out on the way. -/
inductive Due (s : Sink) (amid : Nat) :
    Pull → Sink → Option Tile → Rect → List Rect → Option Job → Prop
  /-- The computation that the pull waited for has ended. -/
  | woken {out : Region} {cells : List Rect} {tile : Nat} {cell : Rect} {painted : Bool} :
      Due s amid ⟨out, cells, .computed tile cell painted⟩ s
        (s.cache.tiles[tile]?.filter fun t => painted && t.area == cell) cell cells none
  /-- The cell has a tile, or somebody else computes it. -/
  | ready {out : Region} {cells : List Rect} {cell : Rect} {d : Cache} {id : Nat}
      (asked : s.cache.acquire s.generation cell = (d, .ready id)) :
      Due s amid ⟨out, cell :: cells, .nothing⟩ (s.after d amid) d.tiles[id]? cell cells none
  /-- There is no tile to be had. -/
  | unavailable {out : Region} {cells : List Rect} {cell : Rect} {d : Cache}
      (asked : s.cache.acquire s.generation cell = (d, .unavailable)) :
      Due s amid ⟨out, cell :: cells, .nothing⟩ (s.after d amid) none cell cells none
  /-- The cell has to be computed, and the pull does not wait for that. -/
  | background {out : Region} {cells : List Rect} {cell : Rect} {d : Cache} {job : Job}
      (asked : s.cache.acquire s.generation cell = (d, .compute job))
      (mode : s.config.mode = .background) :
      Due s amid ⟨out, cell :: cells, .nothing⟩ (s.after d amid) d.tiles[job.tile]? cell cells
        (some job)

/-- The part of the plane that a cell without valid pixels has zeros written to. -/
def blankArea (tile? : Option Tile) (cell : Rect) (out : Region) : Rect :=
  match tile? with
  | none => cell
  | some t => t.area.intersect out.valid

/-- Zeros are written to the cell that is due, and nowhere else. -/
theorem contains_blankArea {tile? : Option Tile} {cell : Rect} {out : Region} {x y : Coord}
    (ha : ∀ t, tile? = some t → t.area = cell) (hin : out.valid.contains x y = true) :
    (blankArea tile? cell out).contains x y = cell.contains x y := by
  cases tile? with
  | none => rfl
  | some t =>
    rw [← ha t rfl]
    show (t.area.intersect out.valid).contains x y = t.area.contains x y
    rw [Rect.contains_intersect, hin, Bool.and_true]

/-- What a step of a pull can do. -/
inductive Serving (s : Sink) (amid : Nat) : Pull → Sink × Served × Option Job → Prop
  /-- The pull waits, or has nothing left to do. -/
  | idle {pull : Pull} (rests : pull.isWaiting = true ∨ pull.isDone = true) :
      Serving s amid pull (s, .went pull, none)
  /-- The pull begins to wait for the computation of its next cell. -/
  | waits {out : Region} {cells : List Rect} {cell : Rect} {d : Cache} {job : Job}
      (asked : s.cache.acquire s.generation cell = (d, .compute job))
      (mode : s.config.mode = .synchronous) :
      Serving s amid ⟨out, cell :: cells, .nothing⟩
        (s.after d amid, .went ⟨out, cells, .computing job.tile cell⟩, some job)
  /-- The cell is written with zeros. -/
  | zeroed {pull : Pull} {s' : Sink} {tile? : Option Tile} {cell : Rect} {cells : List Rect}
      {job? : Option Job} {out : Region} (due : Due s amid pull s' tile? cell cells job?)
      (painted : pull.out.paint (blankArea tile? cell pull.out) 0 = .ok out) :
      Serving s amid pull
        ({ s' with zeroFilled := s'.zeroFilled + 1 }, .went ⟨out, cells, .nothing⟩, job?)
  /-- The cell is written with the pixels of its tile. -/
  | copied {pull : Pull} {s' : Sink} {t : Tile} {region : Region} {cell : Rect}
      {cells : List Rect} {job? : Option Job} {out : Region}
      (due : Due s amid pull s' (some t) cell cells job?) (held : t.region? = some region)
      (valid : t.isValid s'.generation = true)
      (copy : pull.out.copyFrom region (t.area.intersect pull.out.valid) = .ok out) :
      Serving s amid pull (s', .went ⟨out, cells, .nothing⟩, job?)
  /-- Writing the cell breaks off. -/
  | broke {pull : Pull} {s' : Sink} {tile? : Option Tile} {cell : Rect} {cells : List Rect}
      {job? : Option Job} {fault : Fault} (due : Due s amid pull s' tile? cell cells job?) :
      Serving s amid pull (s', .broke fault, job?)
  /-- The request for the next cell breaks off. -/
  | stopped {out : Region} {cells : List Rect} {cell : Rect} {d : Cache} {fault : Fault}
      (asked : s.cache.acquire s.generation cell = (d, .broke fault)) :
      Serving s amid ⟨out, cell :: cells, .nothing⟩ (s.after d amid, .broke fault, none)

variable {s s' : Sink} {amid : Nat} {pull : Pull} {tile? : Option Tile} {cell : Rect}
  {cells : List Rect} {job? : Option Job}

theorem isValid_iff {t : Tile} {generation : Nat} :
    t.isValid generation = true ↔ t.state = .painted ∧ t.isStale generation = false := by
  rw [Tile.isValid, Tile.isPainted, Bool.and_eq_true, decide_eq_true_eq, Bool.not_eq_true']

theorem copyTo_of_not_valid {t : Tile} {generation : Nat} {out : Region}
    (h : ¬ (∃ region, t.region? = some region) ∨ t.isValid generation = false) :
    t.copyTo generation out = (out.paint (t.area.intersect out.valid) 0).map (·, false) := by
  rw [Tile.copyTo]
  cases hr : t.region? with
  | none => rfl
  | some region =>
    rw [hr] at h
    have hv : t.isValid generation = false := by simpa using h
    simp [hv]

theorem copyTo_of_valid {t : Tile} {generation : Nat} {out region : Region}
    (hr : t.region? = some region) (h : t.isValid generation = true) :
    t.copyTo generation out =
      (out.copyFrom region (t.area.intersect out.valid)).map (·, true) := by
  rw [Tile.copyTo, hr]
  simp [h]

/-- What comes of writing zeros. -/
def answerZeros (s : Sink) (cells : List Rect) : Except Fault Region → Sink × Served
  | .error fault => (s, .broke fault)
  | .ok out => ({ s with zeroFilled := s.zeroFilled + 1 }, .went ⟨out, cells, .nothing⟩)

/-- What comes of copying pixels. -/
def answerPixels (s : Sink) (cells : List Rect) : Except Fault Region → Sink × Served
  | .error fault => (s, .broke fault)
  | .ok out => (s, .went ⟨out, cells, .nothing⟩)

theorem answer_of_none (s : Sink) (cell : Rect) (out : Region) (cells : List Rect) :
    s.answer none cell out cells = s.answerZeros cells (out.paint cell 0) := by
  delta answer
  dsimp only
  cases out.paint cell 0 <;> rfl

theorem answer_of_not_valid {out : Region}
    (h : ∀ t, tile? = some t →
      ¬ (∃ region, t.region? = some region) ∨ t.isValid s.generation = false) :
    s.answer tile? cell out cells =
      s.answerZeros cells (out.paint (blankArea tile? cell out) 0) := by
  cases tile? with
  | none => exact s.answer_of_none cell out cells
  | some t =>
    show s.answer (some t) cell out cells =
      s.answerZeros cells (out.paint (t.area.intersect out.valid) 0)
    delta answer
    dsimp only
    rw [copyTo_of_not_valid (h t rfl)]
    cases out.paint (t.area.intersect out.valid) 0 <;> rfl

theorem answer_of_valid {t : Tile} {out region : Region} (hr : t.region? = some region)
    (h : t.isValid s.generation = true) :
    s.answer (some t) cell out cells =
      s.answerPixels cells (out.copyFrom region (t.area.intersect out.valid)) := by
  delta answer
  dsimp only
  rw [copyTo_of_valid hr h]
  cases out.copyFrom region (t.area.intersect out.valid) <;> rfl

/-- A cell is written with the pixels of a valid tile or else with zeros. -/
theorem answer_cases (s : Sink) (tile? : Option Tile) (cell : Rect) (out : Region)
    (cells : List Rect) :
    (∃ t region, tile? = some t ∧ t.region? = some region ∧ t.isValid s.generation = true ∧
        s.answer tile? cell out cells =
          s.answerPixels cells (out.copyFrom region (t.area.intersect out.valid))) ∨
      s.answer tile? cell out cells =
        s.answerZeros cells (out.paint (blankArea tile? cell out) 0) := by
  by_cases hv : ∃ t region, tile? = some t ∧ t.region? = some region ∧
      t.isValid s.generation = true
  · obtain ⟨t, region, rfl, hr, hv⟩ := hv
    exact .inl ⟨t, region, rfl, hr, hv, answer_of_valid hr hv⟩
  · refine .inr (answer_of_not_valid fun t ht => ?_)
    rw [Bool.eq_false_iff, ← not_and_or]
    rintro ⟨⟨region, hr⟩, hval⟩
    exact hv ⟨t, region, ht, hr, hval⟩

/-- A step that has come to write a cell writes zeros or pixels, or breaks off. -/
theorem Due.serving (due : Due s amid pull s' tile? cell cells job?) :
    Serving s amid pull ((s'.answer tile? cell pull.out cells).1,
      (s'.answer tile? cell pull.out cells).2, job?) := by
  rcases s'.answer_cases tile? cell pull.out cells with ⟨t, region, rfl, hr, hv, heq⟩ | heq
  · rw [heq]
    cases hc : pull.out.copyFrom region (t.area.intersect pull.out.valid) with
    | error fault => exact .broke due
    | ok out => exact .copied due hr hv hc
  · rw [heq]
    cases hp : pull.out.paint (blankArea tile? cell pull.out) 0 with
    | error fault => exact .broke due
    | ok out => exact .zeroed due hp

/-- **There is nothing else that a step of a pull can do.** -/
theorem serving (s : Sink) (pull : Pull) (amid : Nat) :
    Serving s amid pull (s.serve pull amid) := by
  obtain ⟨out, cells, wait⟩ := pull
  cases wait with
  | computing tile cell => exact .idle (.inl rfl)
  | computed tile cell painted => exact Due.serving .woken
  | nothing =>
    cases cells with
    | nil => exact .idle (.inr rfl)
    | cons cell cells =>
      rw [serve]
      cases ha : s.cache.acquire s.generation cell with
      | mk d acquired =>
        cases acquired with
        | ready id => exact Due.serving (Due.ready ha)
        | unavailable => exact Due.serving (Due.unavailable ha)
        | broke fault => exact .stopped ha
        | compute job =>
          dsimp only
          cases hm : s.config.mode with
          | synchronous => exact .waits ha hm
          | background => exact Due.serving (Due.background ha hm)

/-! ## What a step does to the cache -/

/-- The job that an answer of the cache hands out, if it does. -/
def handedOut : Acquired → Option Job
  | .compute job => some job
  | _ => none

/-- `Asks s pull d job?`: the cache comes to be `d`, either because nothing happened to it or by a
request for the next cell of the pull, which handed out `job?`. -/
def Asks (s : Sink) (pull : Pull) (d : Cache) (job? : Option Job) : Prop :=
  (pull.next? = none ∧ d = s.cache ∧ job? = none) ∨
    ∃ cell acquired, pull.next? = some cell ∧
      s.cache.acquire s.generation cell = (d, acquired) ∧ job? = handedOut acquired

theorem Due.asks (due : Due s amid pull s' tile? cell cells job?) :
    s.Asks pull s'.cache job? := by
  cases due with
  | woken => exact .inl ⟨rfl, rfl, rfl⟩
  | ready asked => exact .inr ⟨_, _, rfl, asked, rfl⟩
  | unavailable asked => exact .inr ⟨_, _, rfl, asked, rfl⟩
  | background asked _ => exact .inr ⟨_, _, rfl, asked, rfl⟩

/-- **A step asks for the next cell, or leaves the cache alone.** -/
theorem Serving.asks {r : Sink × Served × Option Job} (h : Serving s amid pull r) :
    s.Asks pull r.1.cache r.2.2 := by
  cases h with
  | idle rests =>
    refine .inl ⟨?_, rfl, rfl⟩
    obtain ⟨out, cells, wait⟩ := pull
    cases wait with
    | nothing =>
      cases cells with
      | nil => rfl
      | cons cell cells => exact absurd rests (by simp [Pull.isWaiting, Pull.isDone])
    | computing _ _ => rfl
    | computed _ _ _ => rfl
  | waits asked _ => exact .inr ⟨_, _, rfl, asked, rfl⟩
  | zeroed due _ => exact due.asks
  | copied due _ _ _ => exact due.asks
  | broke due => exact due.asks
  | stopped asked => exact .inr ⟨_, _, rfl, asked, rfl⟩

theorem Due.config (due : Due s amid pull s' tile? cell cells job?) : s'.config = s.config := by
  cases due <;> rfl

theorem Serving.config {r : Sink × Served × Option Job} (h : Serving s amid pull r) :
    r.1.config = s.config := by
  cases h with
  | idle _ => rfl
  | waits _ _ => rfl
  | zeroed due _ => exact due.config
  | copied due _ _ _ => exact due.config
  | broke due => exact due.config
  | stopped _ => rfl

theorem Due.attached (due : Due s amid pull s' tile? cell cells job?) :
    s'.attached = s.attached := by
  cases due <;> rfl

theorem Serving.attached {r : Sink × Served × Option Job} (h : Serving s amid pull r) :
    r.1.attached = s.attached := by
  cases h with
  | idle _ => rfl
  | waits _ _ => rfl
  | zeroed due _ => exact due.attached
  | copied due _ _ _ => exact due.attached
  | broke due => exact due.attached
  | stopped _ => rfl

theorem Due.zeroFilled (due : Due s amid pull s' tile? cell cells job?) :
    s'.zeroFilled = s.zeroFilled := by
  cases due <;> rfl

/-- The generation never falls. -/
theorem Due.generation_le (due : Due s amid pull s' tile? cell cells job?) :
    s.generation ≤ s'.generation := by
  cases due with
  | woken => exact Nat.le_refl _
  | ready _ => exact Nat.le_add_right _ _
  | unavailable _ => exact Nat.le_add_right _ _
  | background _ _ => exact Nat.le_add_right _ _

theorem Serving.generation_le {r : Sink × Served × Option Job} (h : Serving s amid pull r) :
    s.generation ≤ r.1.generation := by
  cases h with
  | idle _ => exact Nat.le_refl _
  | waits _ _ => exact Nat.le_add_right _ _
  | zeroed due _ => exact due.generation_le
  | copied due _ _ _ => exact due.generation_le
  | broke due => exact due.generation_le
  | stopped _ => exact Nat.le_add_right _ _

/-- No more invalidations count than there were. -/
theorem Due.generation_le_add (due : Due s amid pull s' tile? cell cells job?) :
    s'.generation ≤ s.generation + amid := by
  cases due with
  | woken => exact Nat.le_add_right _ _
  | ready _ => exact Nat.le_refl _
  | unavailable _ => exact Nat.le_refl _
  | background _ _ => exact Nat.le_refl _

theorem Serving.generation_le_add {r : Sink × Served × Option Job} (h : Serving s amid pull r) :
    r.1.generation ≤ s.generation + amid := by
  cases h with
  | idle _ => exact Nat.le_add_right _ _
  | waits _ _ => exact Nat.le_refl _
  | zeroed due _ => exact due.generation_le_add
  | copied due _ _ _ => exact due.generation_le_add
  | broke due => exact due.generation_le_add
  | stopped _ => exact Nat.le_refl _

/-! ## Cells that are due -/

/-- The pull has not written the cell: it has not asked for it yet, or has waited for it. -/
def IsDue (pull : Pull) (cell : Rect) : Prop :=
  cell ∈ pull.cells ∨ (∃ tile, pull.wait = .computing tile cell) ∨
    ∃ tile painted, pull.wait = .computed tile cell painted

theorem isDue_of_nothing {out : Region} : IsDue ⟨out, cells, .nothing⟩ cell ↔ cell ∈ cells := by
  refine ⟨fun h => ?_, .inl⟩
  rcases h with h | ⟨_, h⟩ | ⟨_, _, h⟩
  · exact h
  · cases h
  · cases h

theorem isDue_wake {painted : Bool} : IsDue (pull.wake painted) cell ↔ IsDue pull cell := by
  obtain ⟨out, cells, wait⟩ := pull
  cases wait with
  | nothing => exact Iff.rfl
  | computed tile cell painted => exact Iff.rfl
  | computing tile awaited =>
    constructor
    · rintro (h | ⟨_, h⟩ | ⟨_, _, h⟩)
      · exact .inl h
      · cases h
      · obtain ⟨rfl, rfl, -⟩ := Wait.computed.inj h
        exact .inr (.inl ⟨_, rfl⟩)
    · rintro (h | ⟨_, h⟩ | ⟨_, _, h⟩)
      · exact .inl h
      · obtain ⟨rfl, rfl⟩ := Wait.computing.inj h
        exact .inr (.inr ⟨_, _, rfl⟩)
      · cases h

theorem Due.cells_eq (due : Due s amid pull s' tile? cell cells job?) :
    pull.cells = pull.next?.toList ++ cells := by
  cases due <;> rfl

/-- A step takes the cell that it asks for from those of the pull, and no other. -/
theorem Serving.cells_eq {d : Sink} {next : Pull} {job? : Option Job}
    (h : Serving s amid pull (d, .went next, job?)) :
    pull.cells = pull.next?.toList ++ next.cells := by
  cases h with
  | idle rests =>
    have hnone : pull.next? = none := by
      rcases rests with hwaiting | hdone
      · obtain ⟨out, cells, wait⟩ := pull
        cases wait with
        | computing _ _ => rfl
        | nothing => cases hwaiting
        | computed _ _ _ => cases hwaiting
      · exact Pull.next?_of_isDone hdone
    rw [hnone]
    rfl
  | waits _ _ => rfl
  | zeroed due _ => exact due.cells_eq
  | copied due _ _ _ => exact due.cells_eq

/-- Of the cells of a pull, a step that comes to write takes one out. -/
theorem Due.isDue_iff (due : Due s amid pull s' tile? cell cells job?) {other : Rect} :
    IsDue pull other ↔ other = cell ∨ other ∈ cells := by
  cases due with
  | woken =>
    constructor
    · rintro (h | ⟨_, h⟩ | ⟨_, _, h⟩)
      · exact .inr h
      · cases h
      · obtain ⟨-, rfl, -⟩ := Wait.computed.inj h
        exact .inl rfl
    · rintro (rfl | h)
      · exact .inr (.inr ⟨_, _, rfl⟩)
      · exact .inl h
  | ready _ => exact isDue_of_nothing.trans List.mem_cons
  | unavailable _ => exact isDue_of_nothing.trans List.mem_cons
  | background _ _ => exact isDue_of_nothing.trans List.mem_cons

/-- A pull never gets new cells. -/
theorem Serving.isDue_of_went {d : Sink} {next : Pull} {job? : Option Job}
    (h : Serving s amid pull (d, .went next, job?)) (hn : IsDue next cell) : IsDue pull cell := by
  cases h with
  | idle _ => exact hn
  | waits _ _ =>
    rcases hn with h | ⟨_, h⟩ | ⟨_, _, h⟩
    · exact .inl (List.mem_cons_of_mem _ h)
    · obtain ⟨-, rfl⟩ := Wait.computing.inj h
      exact .inl List.mem_cons_self
    · cases h
  | zeroed due _ => exact due.isDue_iff.2 (.inr (isDue_of_nothing.1 hn))
  | copied due _ _ _ => exact due.isDue_iff.2 (.inr (isDue_of_nothing.1 hn))

/-- The tile that a step looks at is one of the cache, and stands on the cell that is due. -/
theorem Due.tile_area (hw : s.cache.WellFormed)
    (hc : ∀ cell, IsDue pull cell → s.cache.size.IsCell cell)
    (due : Due s amid pull s' tile? cell cells job?) {t : Tile} (ht : tile? = some t) :
    (∃ id : Nat, s'.cache.tiles[id]? = some t) ∧ t.area = cell := by
  cases due with
  | woken =>
    obtain ⟨hs, hf⟩ := Option.filter_eq_some_iff.1 ht
    rw [Bool.and_eq_true, beq_iff_eq] at hf
    exact ⟨⟨_, hs⟩, hf.2⟩
  | ready asked =>
    obtain ⟨t', hs, ha, -⟩ := Cache.exists_of_ready hw (hc _ (.inl List.mem_cons_self)) asked
    rw [hs] at ht
    obtain rfl := Option.some.inj ht
    exact ⟨⟨_, hs⟩, ha⟩
  | unavailable _ => cases ht
  | background asked _ =>
    obtain ⟨hcell, ⟨t', hs, -, ha⟩, -⟩ :=
      Cache.computing_of_compute hw (hc _ (.inl List.mem_cons_self)) asked
    rw [hs] at ht
    obtain rfl := Option.some.inj ht
    exact ⟨⟨_, hs⟩, ha.trans hcell⟩

end Sink

end TileCache
