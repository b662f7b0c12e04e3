import TileCache.Proofs.Sink.Ledger
import TileCache.Proofs.Sink.Notices

/-!
# Pulls in turn

If pulls come one after the other to a synchronous sink, and the image is left alone, each cell that
is answered with zeros goes back to a request in vain or to a computation that did not complete.  In
between, a pull may owe the zeros for a computation that has ended already: `Owes` describes the
states of such a run and says how many cells are owed, `incurredBy` says what a move adds to that,
and `settles_step` that every move keeps the accounts.
-/

set_option autoImplicit false

namespace TileCache

namespace Engine

variable {e d : Engine} {move : Move} {id n : Nat}

/-! ## Pulls in turn -/

/-- May this move be made, if pulls come one at a time, are carried through, and find the image as
it was? -/
def Admits (e : Engine) : Move → Prop
  | .openPull _ _ _ => e.pulls = []
  | .advance _ amid => amid = 0
  | .begin _ | .finish _ _ | .drop _ | .shutdown => True
  | .dropPull _ | .invalidate | .detach => False

/-- Do pulls come in turn in this run? -/
def InTurn (e : Engine) (moves : List Move) : Prop := Throughout Admits e moves

/-- `e.Owes n`: this is a state of such a run, and `n` cells have not been answered with zeros
although it is settled that they will be. -/
inductive Owes (e : Engine) : Nat → Prop
  | idle (pulls : e.pulls = []) (computations : e.computations = []) : Owes e 0
  /-- The pull is about to ask for a cell. -/
  | asking {id : Nat} {out : Region} {cells : List Rect}
      (pulls : e.pulls = [(id, ⟨out, cells, .nothing⟩)]) (computations : e.computations = []) :
      Owes e 0
  /-- The pull waits for the only computation. -/
  | waiting {id n : Nat} {out : Region} {cells : List Rect} {c : Computation}
      (pulls : e.pulls = [(id, ⟨out, cells, .computing c.job.tile c.job.area⟩)])
      (computations : e.computations = [(n, c)]) (client : c.client = .pull id)
      (current : ∀ beganAt, c.beganAt? = some beganAt → beganAt = e.sink.generation) : Owes e 0
  /-- The computation has completed, and the tile is still as it has left it. -/
  | painted {id tile : Nat} {out : Region} {cells : List Rect} {cell : Rect} {t : Tile}
      (pulls : e.pulls = [(id, ⟨out, cells, .computed tile cell true⟩)])
      (computations : e.computations = []) (stands : e.sink.cache.tiles[tile]? = some t)
      (area : t.area = cell) (pixels : Sink.hasPixels e.sink.generation (some t) = true) : Owes e 0
  /-- The computation has not completed. -/
  | unpainted {id tile : Nat} {out : Region} {cells : List Rect} {cell : Rect}
      (pulls : e.pulls = [(id, ⟨out, cells, .computed tile cell false⟩)])
      (computations : e.computations = []) : Owes e 1

/-- The cells that must be answered with zeros because of a move, sooner or later. -/
def incurredBy (e : Engine) (move : Move) : Nat :=
  (e.kindsBy move).countP Kind.isVain + (e.fatesBy move).countP (· ≠ .completed) +
    (e.lostBy move).length

/-- The accounts of one move that takes `e`, which owes `n` cells, to `d`. -/
def Settles (e : Engine) (move : Move) (d : Engine) (n : Nat) : Prop :=
  ∃ m, d.Owes m ∧ zerosAmong (e.answeredBy move) + m = n + e.incurredBy move

/-- A move that changes nothing answers nothing. -/
theorem settles_of_same (h : d.Owes n) (hanswered : e.answeredBy move = [])
    (hincurred : e.incurredBy move = 0) : Settles e move d n :=
  ⟨n, h, by rw [hanswered, hincurred]; exact Nat.zero_add n⟩

/-! ## Steps of the pull -/

theorem answeredBy_of_due {s' s : Sink} {amid : Nat} {pull next : Pull} {tile? : Option Tile}
    {cell : Rect} {cells : List Rect} {job? other? : Option Job}
    (hf : e.pulls.lookup id = some pull)
    (due : e.sink.Due amid pull s' tile? cell cells job?)
    (h : e.sink.serve pull amid = (s, .went next, other?)) :
    e.answeredBy (.advance id amid) = [(cell, Sink.hasPixels s.generation tile?)] := by
  rw [answeredBy, hf]
  simp only [h, Sink.look_of_due due]
  rfl

/-- In synchronous mode a job always finds somebody to run it. -/
theorem lostBy_advance (hmode : e.sink.config.mode = .synchronous) (id amid : Nat) :
    e.lostBy (.advance id amid) = [] := by
  rw [lostBy]
  split
  · rfl
  · rw [if_neg]
    rw [clientOf, hmode]
    exact fun hn => by cases hn.1

theorem incurredBy_advance (hmode : e.sink.config.mode = .synchronous) (id amid : Nat) :
    e.incurredBy (.advance id amid) = (e.kindsBy (.advance id amid)).countP Kind.isVain := by
  rw [incurredBy, lostBy_advance hmode]
  rfl

/-- A step of the only pull, if it is not its last. -/
theorem advance_of_single (hmode : e.sink.config.mode = .synchronous) {pull : Pull}
    (hp : e.pulls = [(id, pull)]) (hdone : pull.isDone = false) (amid : Nat) :
    e.advance id amid = (e.dropPull id).carryOn id (.pull id) (e.sink.serve pull amid) := by
  have hclient : e.clientOf id = .pull id := by rw [clientOf, hmode]
  rw [advance, hp, List.lookup_cons_self, ← hclient]
  simp only [hdone, Bool.false_eq_true, if_false]

/-- A step of the only pull that does not break off answers a cell, or begins to wait for one. -/
theorem answers_or_waits (hmode : e.sink.config.mode = .synchronous) {pull : Pull}
    (hp : e.pulls = [(id, pull)]) (hdone : pull.isDone = false) (hawake : pull.isWaiting = false)
    (hfaults : e.faultsBy (.advance id 0) = []) :
    (∃ (s s' : Sink) (tile? : Option Tile) (cell : Rect) (cells : List Rect) (job? : Option Job)
        (out : Region), e.sink.Due 0 pull s' tile? cell cells job? ∧
        e.sink.serve pull 0 = (s, .went ⟨out, cells, .nothing⟩, job?)) ∨
      ∃ (out : Region) (cell : Rect) (cells : List Rect) (d : Cache) (job : Job),
        pull = ⟨out, cell :: cells, .nothing⟩ ∧
        e.sink.cache.acquire e.sink.generation cell = (d, .compute job) ∧
        e.sink.serve pull 0 =
          (e.sink.after d 0, .went ⟨out, cells, .computing job.tile cell⟩, some job) := by
  have serving := Sink.serving e.sink pull 0
  generalize hserve : e.sink.serve pull 0 = r at serving
  cases serving with
  | idle rests => simp [hawake, hdone] at rests
  | waits asked mode => exact .inr ⟨_, _, _, _, _, rfl, asked, rfl⟩
  | zeroed due painted => exact .inl ⟨_, _, _, _, _, _, _, due, rfl⟩
  | copied due held valid copy => exact .inl ⟨_, _, _, _, _, _, _, due, rfl⟩
  | broke due =>
    rw [faultsBy, advance_of_single hmode hp hdone, hserve] at hfaults
    cases hfaults
  | stopped asked =>
    rw [faultsBy, advance_of_single hmode hp hdone, hserve] at hfaults
    cases hfaults

/-- A step that answers a cell leaves the pull about to ask for the next one. -/
theorem settles_of_due (hmode : e.sink.config.mode = .synchronous) {pull : Pull}
    (hp : e.pulls = [(id, pull)]) (hc : e.computations = []) (hdone : pull.isDone = false)
    {s' s : Sink} {tile? : Option Tile} {cell : Rect} {cells : List Rect} {job? : Option Job}
    {out : Region} (due : e.sink.Due 0 pull s' tile? cell cells job?)
    (hserve : e.sink.serve pull 0 = (s, .went ⟨out, cells, .nothing⟩, job?))
    (hsum : zerosAmong [(cell, Sink.hasPixels e.sink.generation tile?)] =
      n + e.incurredBy (.advance id 0)) :
    Settles e (.advance id 0) (e.step (.advance id 0)) n := by
  have hf : e.pulls.lookup id = some pull := by rw [hp, List.lookup_cons_self]
  have serving := Sink.serving e.sink pull 0
  rw [hserve] at serving
  have hgeneration : s.generation = e.sink.generation :=
    Nat.le_antisymm serving.generation_le_add serving.generation_le
  obtain rfl := job?_of_due hmode due
  refine ⟨0, @Owes.asking _ id out cells ?_ ?_, ?_⟩
  · show (e.advance id 0).1.pulls = _
    rw [advance_of_single hmode hp hdone, hserve]
    exact congrArg (List.cons _) (dropPull_of_single hp)
  · show (e.advance id 0).1.computations = _
    rw [advance_of_single hmode hp hdone, hserve]
    exact hc
  · rw [answeredBy_of_due hf due hserve, hgeneration]
    exact hsum

/-- The kind of the request that a pull makes is entered. -/
theorem kindsBy_advance {pull : Pull} (hp : e.pulls = [(id, pull)]) (amid : Nat) :
    e.kindsBy (.advance id amid) =
      pull.next?.toList.map (e.sink.cache.kindOf e.sink.generation) := by
  rw [kindsBy, requestedBy, hp, List.lookup_cons_self, Option.bind_some]

/-- A cell that is asked for and answered at once is answered with zeros if the request was in
vain. -/
theorem zerosAmong_of_due {s s' : Sink} (hw : s.cache.WellFormed) (ho : s.cache.isOpen = true)
    (hmode : s.config.mode = .synchronous) {out : Region} {asked answered : Rect}
    {cells rest : List Rect} {tile? : Option Tile} {job? : Option Job}
    (due : s.Due 0 ⟨out, asked :: cells, .nothing⟩ s' tile? answered rest job?) :
    zerosAmong [(answered, Sink.hasPixels s.generation tile?)] =
      [s.cache.kindOf s.generation asked].countP Kind.isVain := by
  rw [zerosAmong_singleton, List.countP_singleton]
  cases due with
  | @ready _ _ _ d id hacq =>
    rcases (Cache.acquire_vain hw ho hacq).1 id rfl with
      ⟨hkind, tile, region, ht, hr, hv⟩ | ⟨hkind, hnone⟩
    · rw [hkind, ht, Sink.hasPixels, Option.any_some, hr, hv]
      rfl
    · have hpixels : Sink.hasPixels s.generation d.tiles[id]? = false := by
        cases ht : d.tiles[id]? with
        | none => rfl
        | some tile => rw [Sink.hasPixels, Option.any_some, hnone tile ht, Bool.and_false]
      rw [hkind, hpixels]
      rfl
  | unavailable hacq =>
    rw [(Cache.acquire_vain hw ho hacq).2 rfl]
    rfl
  | background _ mode =>
    rw [hmode] at mode
    cases mode

/-- A computation is begun by a request that is not in vain. -/
theorem isVain_of_compute {c d : Cache} (hw : c.WellFormed) (ho : c.isOpen = true)
    {generation : Nat} {cell : Rect} {job : Job}
    (h : c.acquire generation cell = (d, .compute job)) :
    (c.kindOf generation cell).isVain = false := by
  have hstarts := (Cache.acquire_kind hw ho generation cell).2.2.2 ⟨job, by rw [h]⟩
  cases hk : c.kindOf generation cell <;> rw [hk] at hstarts <;> first | rfl | cases hstarts

theorem settles_asking (hs : e.Sound) (hmode : e.sink.config.mode = .synchronous)
    (ho : e.sink.cache.isOpen = true) {out : Region} {cells : List Rect}
    (hp : e.pulls = [(id, ⟨out, cells, .nothing⟩)]) (hc : e.computations = [])
    (hfaults : e.faultsBy (.advance id 0) = []) :
    Settles e (.advance id 0) (e.step (.advance id 0)) 0 := by
  have hf : e.pulls.lookup id = some ⟨out, cells, .nothing⟩ := by rw [hp, List.lookup_cons_self]
  have hincurred := incurredBy_advance hmode id 0
  rw [kindsBy_advance hp 0] at hincurred
  cases cells with
  | nil =>
    have hstep : e.step (.advance id 0) = e.dropPull id := by
      show (e.advance id 0).1 = _
      rw [advance, hf]
      rfl
    rw [hstep]
    refine ⟨0, .idle (dropPull_of_single hp) hc, ?_⟩
    rw [hincurred, answeredBy, hf]
    rfl
  | cons cell cells =>
    have hdone : Pull.isDone ⟨out, cell :: cells, .nothing⟩ = false := rfl
    rcases answers_or_waits hmode hp hdone rfl hfaults with
      ⟨s, s', tile?, answered, rest, job?, out', due, hserve⟩ |
      ⟨_, _, _, d, job, heq, asked, hserve⟩
    · refine settles_of_due hmode hp hc hdone due hserve ?_
      rw [zerosAmong_of_due hs.cache ho hmode due, hincurred, Nat.zero_add]
      rfl
    · obtain ⟨rfl, hcells, -⟩ := Pull.mk.inj heq
      obtain ⟨rfl, rfl⟩ := List.cons.inj hcells
      have hcell : e.sink.cache.size.IsCell cell :=
        hs.onGrid _ (mem_of_lookup hf) cell (.inl List.mem_cons_self)
      obtain ⟨harea, -, -⟩ := Cache.computing_of_compute hs.cache hcell asked
      have hstep : e.step (.advance id 0) = ((e.dropPull id).carryOn id (.pull id)
          (e.sink.after d 0, .went ⟨out, cells, .computing job.tile cell⟩, some job)).1 := by
        rw [← hserve]
        exact congrArg Prod.fst (advance_of_single hmode hp hdone 0)
      refine ⟨0, @Owes.waiting _ id e.nextId out cells ⟨job, none, .pull id⟩ ?_ ?_ rfl
        (fun _ h => by cases h), ?_⟩
      · rw [hstep, harea]
        exact congrArg (List.cons _) (dropPull_of_single hp)
      · rw [hstep]
        exact congrArg (List.cons _) hc
      · have hlook : e.sink.look ⟨out, cell :: cells, .nothing⟩ = none := by
          simp only [Sink.look, asked, hmode]
        rw [hincurred, answeredBy, hf]
        simp only [hserve, hlook]
        show 0 = 0 + [e.sink.cache.kindOf e.sink.generation cell].countP Kind.isVain
        rw [List.countP_singleton, isVain_of_compute hs.cache ho asked]
        rfl

/-- A pull that is woken up answers the cell that it waited for. -/
theorem settles_woken (hmode : e.sink.config.mode = .synchronous) {out : Region}
    {cells : List Rect} {tile : Nat} {cell : Rect} {painted : Bool}
    (hp : e.pulls = [(id, ⟨out, cells, .computed tile cell painted⟩)]) (hc : e.computations = [])
    (hfaults : e.faultsBy (.advance id 0) = [])
    (hsum : zerosAmong [(cell, Sink.hasPixels e.sink.generation
      (e.sink.cache.tiles[tile]?.filter fun t => painted && t.area == cell))] = n) :
    Settles e (.advance id 0) (e.step (.advance id 0)) n := by
  have hdone : Pull.isDone ⟨out, cells, .computed tile cell painted⟩ = false := by
    cases cells <;> rfl
  have hnone : e.incurredBy (.advance id 0) = 0 := by
    rw [incurredBy_advance hmode, kindsBy_advance hp]
    rfl
  rcases answers_or_waits hmode hp hdone rfl hfaults with
    ⟨s, s', tile?, answered, rest, job?, out', due, hserve⟩ | ⟨_, _, _, _, _, heq, -, -⟩
  · refine settles_of_due hmode hp hc hdone due hserve ?_
    cases due with
    | woken => rw [hsum, hnone, Nat.add_zero]
  · cases (Pull.mk.inj heq).2.2

/-- A step of a pull that waits changes nothing. -/
theorem settles_waiting (hmode : e.sink.config.mode = .synchronous) {out : Region}
    {cells : List Rect} {tile : Nat} {cell : Rect}
    (hp : e.pulls = [(id, ⟨out, cells, .computing tile cell⟩)]) (h : e.Owes n) :
    Settles e (.advance id 0) (e.step (.advance id 0)) n := by
  have hdone : Pull.isDone ⟨out, cells, .computing tile cell⟩ = false := by cases cells <;> rfl
  have hstep : e.step (.advance id 0) = e := by
    show (e.advance id 0).1 = e
    rw [advance_of_single hmode hp hdone]
    show { e with pulls := (id, _) :: (e.dropPull id).pulls } = e
    rw [dropPull_of_single hp, ← hp]
  rw [hstep]
  refine settles_of_same h ?_ ?_
  · rw [answeredBy, hp, List.lookup_cons_self]
    rfl
  · rw [incurredBy_advance hmode, kindsBy_advance hp]
    rfl

theorem settles_advance_of_none (hmode : e.sink.config.mode = .synchronous)
    (hf : e.pulls.lookup id = none) (h : e.Owes n) :
    Settles e (.advance id 0) (e.step (.advance id 0)) n := by
  have hstep : e.step (.advance id 0) = e := by
    show (e.advance id 0).1 = e
    rw [advance, hf]
  rw [hstep]
  refine settles_of_same h ?_ ?_
  · rw [answeredBy, hf]
  · rw [incurredBy_advance hmode, kindsBy, requestedBy, hf]
    rfl

/-- **Steps of the only pull keep the accounts.** -/
theorem settles_advance (hs : e.Sound) (hmode : e.sink.config.mode = .synchronous)
    (ho : e.sink.cache.isOpen = true) (h : e.Owes n)
    (hfaults : e.faultsBy (.advance id 0) = []) :
    Settles e (.advance id 0) (e.step (.advance id 0)) n := by
  have other : ∀ {m : Nat} {pull : Pull}, e.pulls = [(m, pull)] → m ≠ id →
      Settles e (.advance id 0) (e.step (.advance id 0)) n := by
    intro m pull hp hm
    refine settles_advance_of_none hmode ?_ h
    rw [hp, List.lookup_cons, beq_eq_false_iff_ne.2 hm.symm]
    rfl
  cases h with
  | idle hp hc => exact settles_advance_of_none hmode (by rw [hp]; rfl) (.idle hp hc)
  | @asking m _ _ hp hc =>
    by_cases hm : m = id
    · exact settles_asking hs hmode ho (hm ▸ hp) hc hfaults
    · exact other hp hm
  | @waiting m _ _ _ _ hp hc hclient hcurrent =>
    by_cases hm : m = id
    · exact settles_waiting hmode (hm ▸ hp) (.waiting hp hc hclient hcurrent)
    · exact other hp hm
  | @painted m _ _ _ _ t hp hc stands area pixels =>
    by_cases hm : m = id
    · refine settles_woken hmode (hm ▸ hp) hc hfaults ?_
      rw [stands, Option.filter_some, if_pos (by simp [area]), pixels]
      rfl
    · exact other hp hm
  | @unpainted m tile _ _ _ hp hc =>
    by_cases hm : m = id
    · refine settles_woken hmode (hm ▸ hp) hc hfaults ?_
      cases e.sink.cache.tiles[tile]? <;> rfl
    · exact other hp hm

/-! ## Ends of computations -/

theorem pulls_wake_of_single {p : Nat} {pull : Pull} (hp : e.pulls = [(p, pull)])
    (painted : Bool) : (e.wake (.pull p) painted).pulls = [(p, pull.wake painted)] := by
  rw [wake, hp, List.map_singleton]
  dsimp only
  rw [if_pos rfl]

theorem computations_forget_of_single {c : Computation} (hc : e.computations = [(id, c)]) :
    (e.forget id).computations = [] := by
  rw [forget, hc, List.eraseP_cons_of_pos (by simp)]

/-- The end of a call that a pull waits for. -/
theorem step_finish_of_begun {c : Computation} {p beganAt : Nat} (source : Source)
    (hf : e.computations.lookup id = some c) (hb : c.beganAt? = some beganAt)
    (hclient : c.client = .pull p) : e.step (.finish id source) =
      wake { e.forget id with sink := (e.sink.settle c.job beganAt (source c.job.region)).1 }
        (.pull p) (e.sink.settle c.job beganAt (source c.job.region)).2 := by
  rw [step_finish_of_some source hf, finish, hf, ← hclient]
  simp only [hb]
  rw [if_neg fun h => by rw [hclient] at h; cases h.1]

/-- The only computation of such a run is found with the pull that waits for it. -/
theorem Owes.waits_for (h : e.Owes n) {c : Computation}
    (hf : e.computations.lookup id = some c) : n = 0 ∧ ∃ p out cells,
      e.pulls = [(p, ⟨out, cells, .computing c.job.tile c.job.area⟩)] ∧
      e.computations = [(id, c)] ∧ c.client = .pull p ∧
      ∀ beganAt, c.beganAt? = some beganAt → beganAt = e.sink.generation := by
  have none : e.computations ≠ [] := by
    intro hc
    rw [hc] at hf
    cases hf
  cases h with
  | waiting hp hc hclient hcurrent =>
    have hmem := mem_of_lookup hf
    rw [hc, List.mem_singleton] at hmem
    obtain ⟨rfl, rfl⟩ := Prod.mk.inj hmem
    exact ⟨rfl, _, _, _, hp, hc, hclient, hcurrent⟩
  | idle _ hc => exact absurd hc none
  | asking _ hc => exact absurd hc none
  | painted _ hc _ _ _ => exact absurd hc none
  | unpainted _ hc => exact absurd hc none

theorem incurredBy_finish {c : Computation} {beganAt : Nat} (source : Source)
    (hf : e.computations.lookup id = some c) (hb : c.beganAt? = some beganAt) :
    e.incurredBy (.finish id source) =
      if (source c.job.region).ending = .completed then 0 else 1 := by
  have hfates : e.fatesBy (.finish id source) = [(source c.job.region).ending.fate] := by
    rw [fatesBy, hf]
    simp only [hb, Option.isSome_some, if_true]
  rw [incurredBy, hfates]
  show 0 + [(source c.job.region).ending.fate].countP _ + 0 = _
  cases (source c.job.region).ending with
  | completed => rfl
  | failed error => rfl
  | broken => rfl

/-- A tile that has got its buffer back from a completed call has pixels to copy, if the image has
not been invalidated since the call began. -/
theorem hasPixels_of_completed {answer : Answer} (h : answer.ending = .completed) (t : Tile)
    (generation : Nat) :
    Sink.hasPixels generation (some (t.checkin (answer.stamped generation) true)) = true := by
  have hstamped : (answer.stamped generation).stamp = some generation := by
    rw [Answer.stamped, h]
  show (true && (true && !(answer.stamped generation).isStale generation)) = true
  rw [Region.isStale, hstamped]
  simp

/-- **The end of the call that the pull waits for keeps the accounts.** -/
theorem settles_finish (hs : e.Sound) (ho : e.sink.cache.isOpen = true) (h : e.Owes n)
    (source : Source) : Settles e (.finish id source) (e.step (.finish id source)) n := by
  cases hf : e.computations.lookup id with
  | none =>
    rw [step_finish_of_none source hf]
    refine settles_of_same h rfl ?_
    rw [incurredBy, fatesBy, hf]
    rfl
  | some c =>
    cases hb : c.beganAt? with
    | none =>
      rw [step_finish_of_queued source hf hb]
      refine settles_of_same h rfl ?_
      rw [incurredBy, fatesBy, hf]
      simp only [hb]
      rfl
    | some beganAt =>
      obtain ⟨rfl, p, out, cells, hp, hc, hclient, hcurrent⟩ := h.waits_for hf
      obtain rfl := hcurrent beganAt hb
      have hstep := step_finish_of_begun source hf hb hclient
      have hpulls : (e.step (.finish id source)).pulls =
          [(p, ⟨out, cells, .computed c.job.tile c.job.area
            (e.sink.settle c.job e.sink.generation (source c.job.region)).2⟩)] :=
        (congrArg Engine.pulls hstep).trans (pulls_wake_of_single hp _)
      have hcomputations : (e.step (.finish id source)).computations = [] := by
        rw [hstep, wake_eq]
        exact computations_forget_of_single hc
      have hincurred := incurredBy_finish source hf hb
      have hpainted := painted_settle hs hf e.sink.generation (source c.job.region)
      by_cases hend : (source c.job.region).ending = .completed
      · obtain ⟨t, ht, -, ha⟩ := hs.exists_tile ho hf
        have hsink : (e.step (.finish id source)).sink = { e.sink with
            cache := e.sink.cache.complete c.job.tile
              ((source c.job.region).stamped e.sink.generation) true } := by
          rw [hstep, wake_eq]
          show (e.sink.settle _ _ _).1 = _
          rw [Sink.settle, hend]
        have hstands : (e.step (.finish id source)).sink.cache.tiles[c.job.tile]? =
            some { t.checkin ((source c.job.region).stamped e.sink.generation) true with
              lastUsed := e.sink.cache.clock } := by
          rw [hsink]
          exact Cache.getElem?_complete_self ho ht _
        rw [hpainted.2 ⟨ho, hend⟩] at hpulls
        rw [if_pos hend] at hincurred
        refine ⟨0, .painted hpulls hcomputations hstands ha ?_, ?_⟩
        · rw [hsink]
          exact hasPixels_of_completed hend t e.sink.generation
        · rw [hincurred]
          rfl
      · have hnot : (e.sink.settle c.job e.sink.generation (source c.job.region)).2 = false :=
          Bool.eq_false_iff.2 fun h => hend (hpainted.1 h).2
        rw [hnot] at hpulls
        rw [if_neg hend] at hincurred
        refine ⟨1, .unpainted hpulls hcomputations, ?_⟩
        rw [hincurred]
        rfl

/-- A computation that is dropped leaves a cell to be answered with zeros. -/
theorem settles_drop (h : e.Owes n) (id : Nat) :
    ∃ m, (e.drop id).Owes m ∧ m = n + ((e.fatesBy (.drop id)).countP (· ≠ .completed) +
      (e.lostBy (.drop id)).length) := by
  rw [fatesBy, lostBy]
  cases hf : e.computations.lookup id with
  | none =>
    have hsame : e.drop id = e := by rw [drop, hf]
    rw [hsame]
    exact ⟨n, h, rfl⟩
  | some c =>
    obtain ⟨rfl, p, out, cells, hp, hc, hclient, -⟩ := h.waits_for hf
    refine ⟨1, @Owes.unpainted _ p c.job.tile out cells c.job.area ?_ ?_, ?_⟩
    · rw [drop, hf]
      dsimp only
      rw [hclient]
      cases c.beganAt? <;> exact pulls_wake_of_single hp false
    · exact computations_drop_of_cons hc
    · rw [Option.bind_some, Option.bind_some, Computation.dropped?, Computation.queued?]
      cases c.beganAt? <;> rfl

/-! ## Moves -/

theorem Owes.begin (h : e.Owes n) (id : Nat) : (e.begin id).Owes n := by
  have none : e.computations = [] → (e.begin id).computations = [] := fun hc => by
    rw [Engine.begin, hc, List.map_nil]
  cases h with
  | idle hp hc => exact .idle hp (none hc)
  | asking hp hc => exact .asking hp (none hc)
  | painted hp hc stands area pixels => exact .painted hp (none hc) stands area pixels
  | unpainted hp hc => exact .unpainted hp (none hc)
  | @waiting _ m _ _ c hp hc hclient hcurrent =>
    by_cases hbegins : m = id ∧ c.beganAt? = .none
    · refine .waiting (n := m) (c := { c with beganAt? := some e.sink.generation }) hp ?_ hclient
        fun _ h => (Option.some.inj h).symm
      rw [Engine.begin, hc, List.map_singleton]
      dsimp only
      rw [if_pos hbegins]
    · refine .waiting (n := m) (c := c) hp ?_ hclient hcurrent
      rw [Engine.begin, hc, List.map_singleton]
      dsimp only
      rw [if_neg hbegins]

/-- It makes no difference whether there is a runtime. -/
theorem Owes.withRuntime (h : e.Owes n) (hasRuntime : Bool) :
    Owes { e with hasRuntime } n := by
  cases h with
  | idle hp hc => exact .idle hp hc
  | asking hp hc => exact .asking hp hc
  | waiting hp hc hclient hcurrent => exact .waiting hp hc hclient hcurrent
  | painted hp hc stands area pixels => exact .painted hp hc stands area pixels
  | unpainted hp hc => exact .unpainted hp hc

/-- There is at most one computation. -/
theorem Owes.computations_cases (h : e.Owes n) :
    e.computations = [] ∨ ∃ m c, e.computations = [(m, c)] := by
  cases h with
  | waiting _ hc _ _ => exact .inr ⟨_, _, hc⟩
  | idle _ hc => exact .inl hc
  | asking _ hc => exact .inl hc
  | painted _ hc _ _ _ => exact .inl hc
  | unpainted _ hc => exact .inl hc

/-- Only a pull owes anything. -/
theorem Owes.of_pulls_nil (h : e.Owes n) (hp : e.pulls = []) : n = 0 := by
  cases h with
  | unpainted hq _ => rw [hp] at hq; cases hq
  | idle _ _ => rfl
  | asking _ _ => rfl
  | waiting _ _ _ _ => rfl
  | painted _ _ _ _ _ => rfl

theorem settles_openPull {rect : Rect} {out : Region} (hr : ∃ info, out.IsFor info)
    (hp : e.pulls = []) (h : e.Owes n) :
    Settles e (.openPull rect out hr) (e.step (.openPull rect out hr)) n := by
  cases ho : e.openPull rect out with
  | error error =>
    rw [step_openPull_of_error hr ho]
    exact settles_of_same h rfl rfl
  | ok dn =>
    obtain ⟨out', -, hd⟩ := openPull_eq_ok ho
    have hpulls : (e.step (.openPull rect out hr)).pulls =
        [(e.nextId, ⟨out', out'.valid.cells e.sink.size, .nothing⟩)] := by
      rw [step_openPull_of_ok hr ho, hd]
      exact congrArg (List.cons _) hp
    cases h with
    | idle _ hc =>
      refine settles_of_same (.asking hpulls ?_) rfl rfl
      rw [step_openPull_of_ok hr ho, hd]
      exact hc
    | asking hq _ => rw [hp] at hq; cases hq
    | waiting hq _ _ _ => rw [hp] at hq; cases hq
    | painted hq _ _ _ _ => rw [hp] at hq; cases hq
    | unpainted hq _ => rw [hp] at hq; cases hq

theorem settles_shutdown (h : e.Owes n) : Settles e .shutdown (e.step .shutdown) n := by
  have hstep : e.step .shutdown =
      { (e.computations.map (·.1)).foldl Engine.drop e with hasRuntime := false } := rfl
  rcases h.computations_cases with hc | ⟨m, c, hc⟩
  · have hfold : (e.computations.map (·.1)).foldl Engine.drop e = e := by rw [hc]; rfl
    rw [hstep, hfold]
    refine settles_of_same (h.withRuntime false) rfl ?_
    rw [incurredBy, fatesBy, lostBy, hc]
    rfl
  · have hf : e.computations.lookup m = some c := by rw [hc, List.lookup_cons_self]
    have hfold : (e.computations.map (·.1)).foldl Engine.drop e = e.drop m := by rw [hc]; rfl
    have hfates : e.fatesBy .shutdown = e.fatesBy (.drop m) := by
      rw [fatesBy, fatesBy, hf, hc, List.flatMap_singleton, Option.bind_some]
    have hlost : e.lostBy .shutdown = e.lostBy (.drop m) := by
      rw [lostBy, lostBy, hf, hc, List.flatMap_singleton, Option.bind_some]
    obtain ⟨k, hk, hsum⟩ := settles_drop h m
    rw [hstep, hfold]
    refine ⟨k, hk.withRuntime false, ?_⟩
    rw [hsum, incurredBy, hfates, hlost]
    show 0 + (n + (_ + _)) = n + (0 + _ + _)
    omega

/-- **Every move keeps the accounts.** -/
theorem settles_step (hs : e.Sound) (hmode : e.sink.config.mode = .synchronous)
    (ho : e.sink.cache.isOpen = true) (hadmits : e.Admits move) (h : e.Owes n)
    (hfaults : e.faultsBy move = []) : Settles e move (e.step move) n := by
  cases move with
  | openPull rect out hr => exact settles_openPull hr hadmits h
  | advance id amid =>
    obtain rfl : amid = 0 := hadmits
    exact settles_advance hs hmode ho h hfaults
  | begin id => exact settles_of_same (h.begin id) rfl rfl
  | finish id source => exact settles_finish hs ho h source
  | drop id =>
    obtain ⟨m, hm, hsum⟩ := settles_drop h id
    refine ⟨m, hm, ?_⟩
    rw [hsum, incurredBy]
    show 0 + (n + (_ + _)) = n + (0 + _ + _)
    omega
  | shutdown => exact settles_shutdown h
  | dropPull id => cases hadmits
  | invalidate => cases hadmits
  | detach => cases hadmits

/-- While nothing is lost, nobody else computes a cell that such a run asks for. -/
theorem Owes.not_busy (h : e.Owes n) (ho : e.sink.cache.isOpen = true) (ha : e.Accounted [])
    (move : Move) : .busy ∉ e.kindsBy move := by
  intro hbusy
  obtain ⟨cell, hcell, hkind⟩ := List.mem_map.1 hbusy
  cases move with
  | advance id amid =>
    -- the pull asks for a cell, so nothing is computed, and the cache is idle
    obtain ⟨pull, hf, hnext⟩ := Option.bind_eq_some_iff.1 (Option.mem_toList.1 hcell)
    have hmem := mem_of_lookup hf
    have hc : e.computations = [] := by
      cases h with
      | waiting hp _ _ _ =>
        rw [hp, List.mem_singleton] at hmem
        obtain ⟨-, rfl⟩ := Prod.mk.inj hmem
        cases hnext
      | idle _ hc => exact hc
      | asking _ hc => exact hc
      | painted _ hc _ _ _ => exact hc
      | unpainted _ hc => exact hc
    exact Cache.kindOf_ne_busy (ha.isIdle ho hc) e.sink.generation cell hkind
  | openPull _ _ _ => cases hcell
  | dropPull _ => cases hcell
  | begin _ => cases hcell
  | finish _ _ => cases hcell
  | drop _ => cases hcell
  | invalidate => cases hcell
  | detach => cases hcell
  | shutdown => cases hcell

end Engine

end TileCache
