import TileCache.Proofs.Sink.Alone
import TileCache.Sink.Session

/-!
# Computations inside a pull and on tasks of their own

Without a runtime a synchronous pull runs its computations itself.  With a runtime each of them is a
task in a queue, and the pull waits for it.  As long as one pull goes on at a time this comes to the
same, and that is shown by letting both sessions go on side by side: the one with a runtime is
always the other one with a runtime (`SessionOver.attended`).

* `Sink.stepping`, `Engine.advancing`: what a step of such a pull can be.  It ends the pull, breaks
  it off, brings it nearer to its end, or hands out one computation.
* `Engine.computed` is a computation from its beginning to its end, and wakes the pull that it is
  for (`computed_wakes`).
* `Halting`, `Lone.proceed`: a pull goes on to its end or to a computation, and it does so with a
  runtime as without.
* `Lone.settle_enqueued`: a computation that is alone in the queue does what it does inside the
  pull.
* `Agrees`, `Lone.drive`, `Lone.pullInto`: so does a whole pull, by induction on the rounds that it
  takes.
* `attendAll_with_runtime`: so do any requests, one after the other.

Both ways part where a call of the source breaks off.  Inside the pull it takes the pull with it; on
a task of its own it does not.  And a call that waits is dropped inside the pull.  So all this is
for pulls that were served (`Outcome.IsServed`), as all pulls are if the source is `Prompt`.
-/

set_option autoImplicit false

namespace TileCache

/-! ## Faults that are not the source's -/

namespace Region

variable {r s source : Region} {rect : Rect} {value : UInt8} {fault : Fault}

theorem fault_of_paint (h : r.paint rect value = .error fault) : fault = .rowOutside := by
  simp only [paint] at h
  split at h
  · cases h
  · split at h
    · cases h
    · exact (Except.error.inj h).symm

theorem fault_of_copyFrom (h : r.copyFrom source rect = .error fault) :
    fault = .pixelSizes ∨ fault = .rowOutside := by
  simp only [copyFrom] at h
  split at h
  · cases h
  · split at h
    · exact .inl (Except.error.inj h).symm
    · split at h
      · cases h
      · exact .inr (Except.error.inj h).symm

theorem fault_of_buffer (h : r.buffer rect = .error (.faulted fault)) : fault = .countOverflow :=
  (buffer_eq_faulted_iff.1 h).2.2

end Region

namespace Cache

variable {c : Cache} {cell : Rect} {fault : Fault}

theorem fault_of_moveTo {t : Tile} (h : t.moveTo cell = .error (.faulted fault)) :
    fault = .countOverflow := by
  rw [Tile.moveTo] at h
  cases hr : t.region? with
  | none =>
    rw [hr] at h
    cases h
  | some region =>
    rw [hr] at h
    dsimp only at h
    cases hb : region.buffer cell with
    | error setback =>
      rw [hb] at h
      obtain rfl : setback = .faulted fault := Except.error.inj h
      exact Region.fault_of_buffer hb
    | ok buffer =>
      rw [hb] at h
      cases h

/-- A request breaks off only because the bytes of a cell cannot be counted. -/
theorem fault_of_acquire {generation : Nat} (h : (c.acquire generation cell).2 = .broke fault) :
    fault = .countOverflow := by
  cases lacksBuffer_of_broke h with
  | new _ failed => exact Region.fault_of_buffer (buffer_of_create_error failed)
  | reused _ _ _ failed => exact fault_of_moveTo failed

end Cache

namespace Sink

variable {s s' : Sink} {tile? : Option Tile} {cell : Rect} {cells : List Rect} {out : Region}
  {fault : Fault} {pull : Pull} {amid : Nat} {job? : Option Job}

/-- An answer does not break off on account of the source. -/
theorem fault_of_answer (h : (s.answer tile? cell out cells).2 = .broke fault) :
    fault ≠ .brokenSource := by
  rcases s.answer_cases tile? cell out cells with ⟨t, region, -, -, -, heq⟩ | heq
  · rw [heq] at h
    cases hc : out.copyFrom region (t.area.intersect out.valid) with
    | ok next =>
      rw [hc] at h
      cases h
    | error other =>
      rw [hc] at h
      cases h
      rcases Region.fault_of_copyFrom hc with rfl | rfl <;> exact nofun
  · rw [heq] at h
    cases hp : out.paint (blankArea tile? cell out) 0 with
    | ok next =>
      rw [hp] at h
      cases h
    | error other =>
      rw [hp] at h
      cases h
      rw [Region.fault_of_paint hp]
      exact nofun

/-- A mask has nothing to do with the source. -/
theorem fault_of_pullMask {rect : Rect} {amid : Rect → Nat}
    (h : s.pullMask rect out amid = .faulted fault) : fault ≠ .brokenSource := by
  have painted : ∀ (value : Rect → UInt8) (cells : List Rect) (out : Region),
      cells.foldlM (fun out cell => out.paint cell (value cell)) out = .error fault →
        fault = .rowOutside := by
    intro value cells
    induction cells with
    | nil =>
      intro out hfold
      rw [List.foldlM_nil] at hfold
      cases hfold
    | cons cell cells ih =>
      intro out hfold
      rw [List.foldlM_cons] at hfold
      cases hp : out.paint cell (value cell) with
      | error other =>
        rw [hp] at hfold
        cases hfold
        exact Region.fault_of_paint hp
      | ok next =>
        rw [hp] at hfold
        exact ih next hfold
  delta pullMask at h
  cases hb : out.buffer rect with
  | error setback =>
    rw [hb] at h
    cases setback with
    | refused error => cases h
    | faulted other =>
      cases h
      rw [Region.fault_of_buffer hb]
      exact nofun
  | ok blank =>
    rw [hb] at h
    dsimp only at h
    split at h
    · cases h
    · rename_i other hfold
      cases h
      rw [painted _ _ _ hfold]
      exact nofun

/-- What a step of a pull can do in synchronous mode, if the pull neither waits nor is done: it
breaks off, it comes nearer to its end, or it begins to wait for a computation. -/
inductive Stepping (s : Sink) (pull : Pull) : Sink × Served × Option Job → Prop
  | broke {s' : Sink} {fault : Fault} (config : s'.config = s.config)
      (notSource : fault ≠ .brokenSource) : Stepping s pull (s', .broke fault, none)
  | moved {s' : Sink} {next : Pull} (config : s'.config = s.config)
      (awake : next.isWaiting = false) (cost : next.cost < pull.cost) :
      Stepping s pull (s', .went next, none)
  | waits {s' : Sink} {next : Pull} (job : Job) (config : s'.config = s.config)
      (waiting : next.isWaiting = true) (cost : next.cost < pull.cost) :
      Stepping s pull (s', .went next, some job)

/-- A step does not break off on account of the source. -/
theorem fault_of_serve (h : (s.serve pull amid).2.1 = .broke fault) : fault ≠ .brokenSource := by
  obtain ⟨out, cells, wait⟩ := pull
  cases wait with
  | computing tile cell => cases h
  | computed tile cell painted => exact fault_of_answer h
  | nothing =>
    cases cells with
    | nil => cases h
    | cons cell cells =>
      rw [serve] at h
      cases ha : s.cache.acquire s.generation cell with
      | mk d acquired =>
        rw [ha] at h
        cases acquired with
        | ready id => exact fault_of_answer h
        | unavailable => exact fault_of_answer h
        | broke other =>
          cases h
          rw [Cache.fault_of_acquire (congrArg Prod.snd ha)]
          decide
        | compute job =>
          dsimp only at h
          cases hm : s.config.mode with
          | synchronous =>
            rw [hm] at h
            cases h
          | background =>
            rw [hm] at h
            exact fault_of_answer h

theorem stepping (hmode : s.config.mode = .synchronous) (hawake : pull.isWaiting = false)
    (hdone : pull.isDone = false) : Stepping s pull (s.serve pull 0) := by
  have hfault : ∀ fault, (s.serve pull 0).2.1 = .broke fault → fault ≠ .brokenSource :=
    fun fault => fault_of_serve
  have serving := s.serving pull 0
  generalize s.serve pull 0 = r at hfault serving
  cases serving with
  | idle rests =>
    rw [hawake, hdone] at rests
    exact absurd rests (by decide)
  | @waits out cells cell d job asked mode =>
    refine .waits job rfl rfl ?_
    simp only [Pull.cost, List.length_cons]
    omega
  | zeroed due _ =>
    obtain rfl := Engine.job?_of_due hmode due
    exact .moved due.config rfl (Engine.cost_of_due due)
  | copied due _ _ _ =>
    obtain rfl := Engine.job?_of_due hmode due
    exact .moved due.config rfl (Engine.cost_of_due due)
  | broke due =>
    obtain rfl := Engine.job?_of_due hmode due
    exact .broke due.config (hfault _ rfl)
  | stopped _ => exact .broke rfl (hfault _ rfl)

end Sink

namespace Engine

variable {e : Engine} {id n : Nat} {pull : Pull} {others : List (Nat × Pull)}

/-! ## Somebody to run computations -/

/-- The engine with somebody to run computations on their own. -/
def attended (e : Engine) : Engine := { e with hasRuntime := true }

theorem carryOn_attended (e : Engine) (id p : Nat) (r : Sink × Served × Option Job) :
    e.attended.carryOn id (.pull p) r =
      ((e.carryOn id (.pull p) r).1.attended, (e.carryOn id (.pull p) r).2) := by
  obtain ⟨s, served, job?⟩ := r
  cases served <;> cases job? <;> rfl

/-- A pull that waits for its computations hands them out whoever runs them. -/
theorem advance_attended (hmode : e.sink.config.mode = .synchronous) (id amid : Nat) :
    e.attended.advance id amid = ((e.advance id amid).1.attended, (e.advance id amid).2) := by
  have hclient : e.clientOf id = .pull id := by rw [clientOf, hmode]
  rw [advance, advance, show e.attended.pulls = e.pulls from rfl]
  cases e.pulls.lookup id with
  | none => rfl
  | some pull =>
    dsimp only
    split
    · rfl
    · rw [show e.attended.clientOf id = e.clientOf id from rfl, hclient]
      exact carryOn_attended (e.dropPull id) id id _

theorem finish_attended (e : Engine) (id : Nat) (answer : Answer) :
    e.attended.finish id answer = (e.finish id answer).attended := by
  rw [finish, finish, show e.attended.computations = e.computations from rfl]
  cases e.computations.lookup id with
  | none => rfl
  | some c =>
    obtain ⟨job, beganAt?, client⟩ := c
    cases beganAt? with
    | none => rfl
    | some beganAt =>
      dsimp only
      rw [show e.attended.sink = e.sink from rfl]
      split <;> cases client <;> rfl

/-! ## Steps of the pull that was begun last -/

/-- The engine has the configuration of another, and runs computations or does not as that does. -/
structure Like (d e : Engine) : Prop where
  config : d.sink.config = e.sink.config
  hasRuntime : d.hasRuntime = e.hasRuntime

/-- How a pull stands after a step, if it neither waited nor was done before. -/
inductive Advancing (e : Engine) (id : Nat) (pull : Pull) (others : List (Nat × Pull)) :
    Engine × Option Turn × Option Nat → Prop
  | finished {d : Engine} (like : d.Like e) :
    Advancing e id pull others (d, some (.finished pull.out), none)
  | broke {d : Engine} {fault : Fault} (like : d.Like e) (notSource : fault ≠ .brokenSource) :
    Advancing e id pull others (d, some (.broke fault), none)
  | moved {d : Engine} {next : Pull} (like : d.Like e) (pulls : d.pulls = (id, next) :: others)
      (awake : next.isWaiting = false) (cost : next.cost < pull.cost) :
    Advancing e id pull others (d, some .moved, none)
  | waits {d : Engine} {next : Pull} {n : Nat} {job : Job} (like : d.Like e)
      (pulls : d.pulls = (id, next) :: others) (waiting : next.isWaiting = true)
      (cost : next.cost < pull.cost)
      (computations : d.computations = (n, ⟨job, none, .pull id⟩) :: e.computations) :
    Advancing e id pull others (d, some .waiting, some n)

theorem advancing (hmode : e.sink.config.mode = .synchronous)
    (hpulls : e.pulls = (id, pull) :: others) (hawake : pull.isWaiting = false) :
    Advancing e id pull others (e.advance id 0) := by
  have hf : e.pulls.lookup id = some pull := by rw [hpulls, List.lookup_cons_self]
  have hothers : (e.dropPull id).pulls = others := by
    rw [dropPull, hpulls, List.eraseP_cons_of_pos (by simp)]
  cases hdone : pull.isDone with
  | true =>
    rw [advance, hf]
    dsimp only
    rw [if_pos hdone]
    exact .finished ⟨rfl, rfl⟩
  | false =>
    have hclient : e.clientOf id = .pull id := by rw [clientOf, hmode]
    rw [advance_of_lookup hf hdone, hclient]
    have stepping := Sink.stepping hmode hawake hdone
    generalize e.sink.serve pull 0 = r at stepping
    cases stepping with
    | broke config notSource => exact .broke ⟨config, rfl⟩ notSource
    | @moved s' next config awake cost =>
      have hturn : (e.dropPull id).carryOn id (.pull id) (s', .went next, none) =
          ({ e.dropPull id with sink := s', pulls := (id, next) :: (e.dropPull id).pulls },
            some .moved, none) := by
        rw [carryOn, awake]
        rfl
      rw [hturn]
      exact .moved ⟨config, rfl⟩ (congrArg (List.cons _) hothers) awake cost
    | @waits s' next job config waiting cost =>
      have hturn : (e.dropPull id).carryOn id (.pull id) (s', .went next, some job) =
          ({ e.dropPull id with
              sink := s', pulls := (id, next) :: (e.dropPull id).pulls
              computations := (e.nextId, ⟨job, none, .pull id⟩) :: e.computations
              nextId := e.nextId + 1 }, some .waiting, some e.nextId) := by
        rw [carryOn, waiting]
        rfl
      rw [hturn]
      exact .waits ⟨config, rfl⟩ (congrArg (List.cons _) hothers) waiting cost rfl

/-! ## A computation from its beginning to its end -/

/-- The engine after a computation that began and took its course. -/
def computed (e : Engine) (n : Nat) (course : Course) : Engine :=
  (Nat.repeat invalidate course.invalidations (e.begin n)).finish n course.answer

theorem repeat_invalidate_attended (e : Engine) (k : Nat) :
    Nat.repeat invalidate k e.attended = (Nat.repeat invalidate k e).attended := by
  induction k with
  | zero => rfl
  | succ k ih =>
    rw [Nat.repeat, Nat.repeat, ih]
    rfl

theorem computed_attended (e : Engine) (n : Nat) (course : Course) :
    e.attended.computed n course = (e.computed n course).attended := by
  rw [computed, computed, show e.attended.begin n = (e.begin n).attended from rfl,
    repeat_invalidate_attended, finish_attended]

/-- Invalidations raise the generation, and that is all. -/
theorem repeat_invalidate (e : Engine) (k : Nat) :
    Nat.repeat invalidate k e =
      { e with sink := { e.sink with generation := e.sink.generation + k } } := by
  induction k with
  | zero => rfl
  | succ k ih =>
    rw [Nat.repeat, ih]
    rfl

theorem config_settle (s : Sink) (job : Job) (beganAt : Nat) (answer : Answer) :
    (s.settle job beganAt answer).1.config = s.config := by
  rcases settle_eq s job beganAt answer with ⟨succeeded, -, heq⟩ | ⟨-, heq⟩ <;> rw [heq]

/-- A computation that was queued last begins. -/
theorem computations_begin {job : Job} {client : Client} {rest : List (Nat × Computation)}
    (h : e.computations = (n, ⟨job, none, client⟩) :: rest) :
    ∃ rest', (e.begin n).computations = (n, ⟨job, some e.sink.generation, client⟩) :: rest' := by
  rw [begin, h, List.map_cons]
  exact ⟨_, congrArg (List.cons · _) (if_pos ⟨rfl, rfl⟩)⟩

theorem pulls_wake (hpulls : e.pulls = (id, pull) :: others) (painted : Bool) :
    ∃ others', (e.wake (.pull id) painted).pulls = (id, pull.wake painted) :: others' := by
  rw [wake, hpulls, List.map_cons]
  exact ⟨_, congrArg (List.cons · _) (if_pos rfl)⟩

/-- **The pull that waits for a computation is woken when it has taken its course.** -/
theorem computed_wakes {job : Job} {rest : List (Nat × Computation)} (course : Course)
    (hpulls : e.pulls = (id, pull) :: others)
    (hcomputations : e.computations = (n, ⟨job, none, .pull id⟩) :: rest) :
    (e.computed n course).Like e ∧ ∃ painted others',
      (e.computed n course).pulls = (id, pull.wake painted) :: others' := by
  obtain ⟨rest', hbegun⟩ := computations_begin hcomputations
  rw [computed, repeat_invalidate, finish, hbegun, List.lookup_cons_self]
  dsimp only
  rw [if_neg fun hn => by cases hn.1]
  exact ⟨⟨config_settle _ _ _ _, rfl⟩, _, pulls_wake hpulls _⟩

end Engine

/-- The pull was not dropped, and it did not break off on account of the source. -/
def Outcome.IsServed : Outcome → Prop
  | .filled | .refused _ => True
  | .broke fault => fault ≠ .brokenSource
  | .pending | .cancelled => False

instance (outcome : Outcome) : Decidable outcome.IsServed :=
  match outcome with
  | .filled | .refused _ => isTrue trivial
  | .broke fault => inferInstanceAs (Decidable (fault ≠ .brokenSource))
  | .pending | .cancelled => isFalse not_false

/-- Every call of such a source ends at once, with an answer of its own. -/
structure Prompt (σ : Type) {κ : Type} [Studio σ κ] : Prop where
  runs : ∀ (studio : σ) (region : Region),
    Studio.waits σ (Studio.call studio region).2 = false
  answers : ∀ (studio : σ) (call : κ) (region : Region),
    (Studio.perform studio call region).answer.ending ≠ .broken

theorem Pull.cost_le (p : Pull) : p.cost ≤ 2 * p.cells.length + 1 := by
  obtain ⟨out, cells, wait⟩ := p
  cases wait <;> simp only [cost] <;> omega

namespace SessionOver

variable {σ κ : Type} {s : SessionOver σ κ} {id n : Nat} {p : Pull} {others : List (Nat × Pull)}

/-! ## Sessions in which one pull goes on at a time -/

/-- The session with a runtime. -/
def attended (s : SessionOver σ κ) : SessionOver σ κ := { s with engine := s.engine.attended }

/-- The session has no runtime, and nothing goes on in it but direct pulls. -/
structure Lone (s : SessionOver σ κ) : Prop where
  mode : s.engine.sink.config.mode = .synchronous
  bare : s.engine.hasRuntime = false
  queue : s.queue = []
  released : s.released = []
  viewers : s.viewers = []

/-- What a pull has started is queued. -/
def enqueued (s : SessionOver σ κ) : Stop → SessionOver σ κ
  | .waiting (some id) => s.push (.computation id)
  | .waiting none | .finished _ | .broke _ _ => s

/-- In synchronous mode a sink is made with a runtime as it is without. -/
theorem start_attended {info : ImageInfo} {config : Config} {studio : σ} {withMask : Bool}
    (hmode : config.mode = .synchronous)
    (hs : SessionOver.start info config studio false withMask = .ok s) :
    SessionOver.start info config studio true withMask = .ok s.attended ∧ s.Lone := by
  have hcreate : ∀ hasRuntime : Bool, Sink.create info config hasRuntime withMask =
      Sink.create info config false withMask := by
    intro hasRuntime
    rw [Sink.create, Sink.create]
    cases config.validate with
    | error error => rfl
    | ok sb =>
      simp only [bind, Except.bind, hmode, reduceCtorEq, false_and, if_false]
  rw [SessionOver.start] at hs ⊢
  rw [hcreate true]
  cases hc : Sink.create info config false withMask with
  | error error =>
    rw [hc] at hs
    cases hs
  | ok sink =>
    rw [hc] at hs
    cases hs
    obtain ⟨-, -, -, hconfig, -, -⟩ := Engine.create_eq_ok hc
    exact ⟨rfl, hconfig ▸ hmode, rfl, rfl, rfl, rfl⟩

/-- The bound for the steps of a pull is one. -/
theorem cost_lt_stepsLeft (hpulls : s.engine.pulls = (id, p) :: others) :
    p.cost < s.stepsLeft id := by
  rw [stepsLeft, hpulls, List.lookup_cons_self]
  exact Nat.lt_of_le_of_lt p.cost_le (Nat.lt_add_of_pos_right Nat.zero_lt_two)

/-- Going on with an engine of the same kind. -/
theorem Lone.withEngine (h : s.Lone) {d : Engine} (hd : d.Like s.engine) :
    ({ s with engine := d } : SessionOver σ κ).Lone :=
  ⟨hd.config ▸ h.mode, hd.hasRuntime ▸ h.bare, h.queue, h.released, h.viewers⟩

/-- Where a pull stops: at its end, or at a computation that it has just handed out. -/
inductive Halting (id : Nat) (p : Pull) (others : List (Nat × Pull)) :
    SessionOver σ κ × Stop → Prop
  | finished {u : SessionOver σ κ} {out : Region} (lone : u.Lone) :
    Halting id p others (u, .finished out)
  | broke {u : SessionOver σ κ} {fault : Fault} {out : Region} (lone : u.Lone)
      (notSource : fault ≠ .brokenSource) : Halting id p others (u, .broke fault out)
  | waits {u : SessionOver σ κ} {next : Pull} {n : Nat} {job : Job}
      {rest : List (Nat × Computation)} (lone : u.Lone)
      (pulls : u.engine.pulls = (id, next) :: others) (cost : next.cost < p.cost)
      (computations : u.engine.computations = (n, ⟨job, none, .pull id⟩) :: rest) :
    Halting id p others (u, .waiting (some n))

/-- There may be steps before. -/
theorem Halting.before {next : Pull} {r : SessionOver σ κ × Stop} (h : Halting id next others r)
    (hcost : next.cost < p.cost) : Halting id p others r := by
  cases h with
  | finished lone => exact .finished lone
  | broke lone notSource => exact .broke lone notSource
  | waits lone pulls cost computations =>
    exact .waits lone pulls (Nat.lt_trans cost hcost) computations

/-- **A pull goes on to its end or to a computation.**  With a runtime it does the same, and the
computation is queued. -/
theorem Lone.proceed (h : s.Lone) {fuel : Nat} (hpulls : s.engine.pulls = (id, p) :: others)
    (hawake : p.isWaiting = false) (hfuel : p.cost < fuel) :
    Halting id p others (proceed fuel s id) ∧
      SessionOver.proceed fuel s.attended id =
        ((SessionOver.proceed fuel s id).1.attended.enqueued (SessionOver.proceed fuel s id).2,
          (SessionOver.proceed fuel s id).2) := by
  induction fuel generalizing s p with
  | zero => exact absurd hfuel (Nat.not_lt_zero _)
  | succ fuel ih =>
    have advancing := Engine.advancing h.mode hpulls hawake
    have hattended := Engine.advance_attended h.mode id 0
    rw [SessionOver.proceed, SessionOver.proceed,
      show s.attended.engine = s.engine.attended from rfl, hattended]
    generalize s.engine.advance id 0 = r at advancing
    cases advancing with
    | finished like => exact ⟨.finished (h.withEngine like), rfl⟩
    | broke like notSource => exact ⟨.broke (h.withEngine like) notSource, rfl⟩
    | @moved d next like pulls awake cost =>
      obtain ⟨halting, htwin⟩ := ih (h.withEngine like) pulls awake
        (Nat.lt_of_lt_of_le cost (Nat.le_of_lt_succ hfuel))
      exact ⟨halting.before cost, htwin⟩
    | @waits d next n job like pulls waiting cost computations =>
      dsimp only
      rw [if_neg (by rw [show d.hasRuntime = false from like.hasRuntime.trans h.bare]; decide)]
      exact ⟨.waits (h.withEngine like) pulls cost computations, rfl⟩

/-- Nor is a pull that gets no buffer. -/
theorem isServed_withoutBuffer {rect : Rect} {out : Region} {setback : Setback}
    (hb : out.buffer rect = .error setback) :
    (Pulled.withoutBuffer out setback).outcome.IsServed := by
  cases setback with
  | refused error => trivial
  | faulted fault =>
    show fault ≠ .brokenSource
    rw [Region.fault_of_buffer hb]
    exact nofun

/-- A mask is never dropped, and has nothing to do with the source. -/
theorem isServed_pullMaskInto (s : SessionOver σ κ) (rect : Rect) (out : Region) :
    (s.pullMaskInto rect out).outcome.IsServed := by
  delta pullMaskInto
  cases hm : s.sink.pullMask rect out (fun _ => 0) with
  | filled filled => trivial
  | refused error => trivial
  | faulted fault => exact Sink.fault_of_pullMask hm

/-! ## Computations -/

/-- Nothing moves where nothing is queued. -/
theorem settleWithin_of_nil [Studio σ κ] (hqueue : s.queue = []) (fuel : Nat) :
    settleWithin fuel s = s := by
  cases fuel with
  | zero => rfl
  | succ fuel => rw [settleWithin, hqueue]

variable [Studio σ κ] {job : Job} {rest : List (Nat × Computation)}

/-- A computation that has to wait does not end. -/
theorem runComputation_of_waits (hreleased : s.released = [])
    (hc : s.engine.computations = (n, ⟨job, none, .pull id⟩) :: rest)
    (hw : Studio.waits σ (Studio.call s.studio job.region).2 = true) :
    (s.runComputation n).2 = none := by
  rw [runComputation, hreleased, List.lookup_nil, hc, List.lookup_cons_self]
  dsimp only
  rw [hw, if_pos rfl]

/-- One that need not wait takes its course. -/
theorem runComputation_eq (hreleased : s.released = []) (hviewers : s.viewers = [])
    (hc : s.engine.computations = (n, ⟨job, none, .pull id⟩) :: rest)
    (hw : Studio.waits σ (Studio.call s.studio job.region).2 = false) :
    s.runComputation n =
      let called := Studio.call s.studio job.region
      let course := Studio.perform called.1 called.2 job.region
      ({ s with
          engine := s.engine.computed n course, studio := called.1
          generated := job.region.valid :: s.generated }, some course.answer.ending) := by
  obtain ⟨rest', hbegun⟩ := Engine.computations_begin hc
  rw [runComputation, hreleased, List.lookup_nil, hc, List.lookup_cons_self]
  dsimp only
  rw [hw, if_neg Bool.false_ne_true, conclude]
  dsimp only
  rw [hbegun, List.lookup_cons_self]
  dsimp only
  rw [viewerOf?, hviewers, List.findSome?_nil]
  rfl

/-- **What comes of a computation that need not wait**: it ends, and its pull goes on. -/
theorem Lone.exists_run (h : s.Lone) (hpulls : s.engine.pulls = (id, p) :: others)
    (hc : s.engine.computations = (n, ⟨job, none, .pull id⟩) :: rest)
    (hw : Studio.waits σ (Studio.call s.studio job.region).2 = false) :
    ∃ v ending, s.runComputation n = (v, some ending) ∧ v.Lone ∧
      (∃ painted others', v.engine.pulls = (id, p.wake painted) :: others') ∧
      (Prompt σ → ending ≠ .broken) := by
  obtain ⟨like, painted, others', hwoken⟩ := Engine.computed_wakes
    (Studio.perform (Studio.call s.studio job.region).1 (Studio.call s.studio job.region).2
      job.region) hpulls hc
  exact ⟨_, _, runComputation_eq h.released h.viewers hc hw,
    ⟨like.config ▸ h.mode, like.hasRuntime ▸ h.bare, h.queue, h.released, h.viewers⟩,
    ⟨painted, others', hwoken⟩, fun prompt => prompt.answers _ _ _⟩

/-- What is queued alone runs, and if it queues nothing that is all. -/
theorem settle_push {task : Task} (hqueue : s.queue = []) (hafter : (s.runTask task).queue = []) :
    (s.push task).settle = s.runTask task := by
  have hpush : ({ s.push task with queue := [] } : SessionOver σ κ) = s := by
    rw [push, ← hqueue]
  rw [settle, workLeft, settleWithin, show (s.push task).queue = [task] by rw [push, hqueue]; rfl]
  dsimp only
  rw [hpush]
  exact settleWithin_of_nil hafter _

/-- **A computation on a task of its own does what it does inside the pull.** -/
theorem Lone.settle_enqueued (h : s.Lone)
    (hc : s.engine.computations = (n, ⟨job, none, .pull id⟩) :: rest)
    (hw : Studio.waits σ (Studio.call s.studio job.region).2 = false) :
    (s.attended.enqueued (.waiting (some n))).settle = (s.runComputation n).1.attended := by
  have hrun := runComputation_eq h.released h.viewers hc hw
  have htwin : s.attended.runTask (.computation n) = (s.runComputation n).1.attended := by
    have hattended := @runComputation_eq σ κ s.attended id n _ job rest h.released h.viewers hc hw
    rw [runTask, hattended, hrun]
    dsimp only
    rw [show s.attended.engine = s.engine.attended from rfl, Engine.computed_attended]
    rfl
  have hqueue : (s.attended.runTask (.computation n)).queue = [] := by
    rw [htwin, hrun]
    exact h.queue
  rw [← htwin]
  exact settle_push h.queue hqueue

/-! ## Direct pulls -/

/-- What is done without a runtime, and with one.  If no call of the source waits or breaks off,
then neither does what is done; and if that does not, it comes to the same with a runtime. -/
structure Agrees (s : SessionOver σ κ) (f : SessionOver σ κ → SessionOver σ κ × Pulled) : Prop where
  served : Prompt σ → (f s).2.outcome.IsServed
  lone : (f s).2.outcome.IsServed → (f s).1.Lone
  same : (f s).2.outcome.IsServed → f s.attended = ((f s).1.attended, (f s).2)

section

variable {t u v : SessionOver σ κ} {fuel : Nat} {ending : Ending}

/-- A round of a pull that runs its computation itself. -/
theorem drive_of_run (fuel : Nat) (hstop : proceed (s.stepsLeft id) s id = (u, .waiting (some n)))
    (hbare : u.engine.hasRuntime = false) (hrun : u.runComputation n = (v, some ending))
    (hending : ending ≠ .broken) : drive (fuel + 1) s id = drive fuel v id := by
  rw [drive, hstop]
  dsimp only
  rw [hbare, if_neg Bool.false_ne_true, runInline, hrun]
  cases ending with
  | completed => rfl
  | failed error => rfl
  | broken => exact absurd rfl hending

/-- A pull does not get past a computation that waits or breaks off. -/
theorem not_isServed_drive (fuel : Nat)
    (hstop : proceed (s.stepsLeft id) s id = (u, .waiting (some n)))
    (hbare : u.engine.hasRuntime = false)
    (hrun : (u.runComputation n).2 = none ∨ (u.runComputation n).2 = some .broken) :
    ¬ (drive (fuel + 1) s id).2.outcome.IsServed := by
  rw [drive, hstop]
  dsimp only
  rw [hbare, if_neg Bool.false_ne_true, runInline]
  generalize u.runComputation n = r at hrun ⊢
  obtain ⟨v, ending?⟩ := r
  rcases hrun with rfl | rfl
  · exact not_false
  · exact fun hserved => hserved rfl

/-- A round of a pull that waits for a task. -/
theorem drive_of_settle {q : Pull} (hstop : proceed (t.stepsLeft id) t id = (u, .waiting (some n)))
    (hruntime : u.engine.hasRuntime = true) (hpulls : u.settle.engine.pulls.lookup id = some q)
    (hawake : q.isWaiting = false) : drive (fuel + 1) t id = drive fuel u.settle id := by
  rw [drive, hstop]
  dsimp only
  rw [hruntime, if_pos rfl, hpulls]
  dsimp only
  rw [hawake, if_neg Bool.false_ne_true]

end

/-- **A pull without a runtime, and the same pull with one.** -/
theorem Lone.drive (h : s.Lone) {fuel : Nat} (hpulls : s.engine.pulls = (id, p) :: others)
    (hawake : p.isWaiting = false) (hfuel : p.cost < fuel) :
    s.Agrees (drive fuel · id) := by
  induction fuel generalizing s p others with
  | zero => exact absurd hfuel (Nat.not_lt_zero _)
  | succ fuel ih =>
    obtain ⟨halting, htwin⟩ := h.proceed hpulls hawake (cost_lt_stepsLeft hpulls)
    generalize hstop : SessionOver.proceed (s.stepsLeft id) s id = r at halting htwin
    replace htwin : SessionOver.proceed (s.attended.stepsLeft id) s.attended id =
      (r.1.attended.enqueued r.2, r.2) := htwin
    cases halting with
    | finished lone =>
      constructor <;> rw [SessionOver.drive, hstop]
      · exact fun _ => trivial
      · exact fun _ => lone
      · rw [SessionOver.drive, htwin]
        exact fun _ => rfl
    | broke lone notSource =>
      constructor <;> rw [SessionOver.drive, hstop]
      · exact fun _ => notSource
      · exact fun _ => lone
      · rw [SessionOver.drive, htwin]
        exact fun _ => rfl
    | @waits u next n job rest lone pulls cost computations =>
      cases hw : Studio.waits σ (Studio.call u.studio job.region).2 with
      | true =>
        have hnot := not_isServed_drive fuel hstop lone.bare
          (.inl (runComputation_of_waits lone.released computations hw))
        refine ⟨fun prompt => ?_, fun hserved => absurd hserved hnot,
          fun hserved => absurd hserved hnot⟩
        rw [prompt.runs] at hw
        cases hw
      | false =>
        obtain ⟨v, ending, hrun, hlone, ⟨painted, others', hwoken⟩, hprompt⟩ :=
          lone.exists_run pulls computations hw
        by_cases hbroken : ending = .broken
        · have hnot := not_isServed_drive fuel hstop lone.bare
            (.inr ((congrArg Prod.snd hrun).trans (congrArg some hbroken)))
          exact ⟨fun prompt => absurd hbroken (hprompt prompt), fun hserved => absurd hserved hnot,
            fun hserved => absurd hserved hnot⟩
        · have hawake' := Pull.isWaiting_wake next painted
          have hcost : (next.wake painted).cost < fuel :=
            Nat.lt_of_lt_of_le (Pull.cost_wake next painted ▸ cost) (Nat.le_of_lt_succ hfuel)
          have hrest := ih hlone hwoken hawake' hcost
          have hround := drive_of_run fuel hstop lone.bare hrun hbroken
          have hsettled : (u.attended.enqueued (.waiting (some n))).settle = v.attended := by
            rw [lone.settle_enqueued computations hw, hrun]
          have hpulls' : (u.attended.enqueued (.waiting (some n))).settle.engine.pulls.lookup id =
              some (next.wake painted) := by
            rw [hsettled, show v.attended.engine.pulls = v.engine.pulls from rfl, hwoken,
              List.lookup_cons_self]
          constructor <;> rw [hround]
          · exact hrest.served
          · exact hrest.lone
          · rw [drive_of_settle htwin rfl hpulls' hawake', hsettled]
            exact hrest.same

/-- **A pull from its beginning to its end.** -/
theorem Lone.pullInto (h : s.Lone) (rect : Rect) (out : Region) :
    s.Agrees (pullInto · rect out) := by
  cases hb : out.buffer rect with
  | error setback =>
    have hopen : ∀ e : Engine, e.openPull rect out = .error setback :=
      fun e => Engine.openPull_of_buffer_error hb
    constructor <;> delta SessionOver.pullInto <;> dsimp only <;> rw [hopen]
    · exact fun _ => isServed_withoutBuffer hb
    · exact fun _ => h
    · rw [hopen]
      exact fun _ => rfl
  | ok buffer =>
    have hopen := fun e : Engine => Engine.openPull_of_buffer (e := e) hb
    obtain ⟨u, hu, hlone, hpulls⟩ : ∃ u : SessionOver σ κ, u = { s with engine := { s.engine with
        pulls := (s.engine.nextId, ⟨buffer, buffer.valid.cells s.engine.sink.size, .nothing⟩) ::
          s.engine.pulls
        nextId := s.engine.nextId + 1 } } ∧ u.Lone ∧ u.engine.pulls =
          (s.engine.nextId, ⟨buffer, buffer.valid.cells s.engine.sink.size, .nothing⟩) ::
            s.engine.pulls := ⟨_, rfl, h.withEngine ⟨rfl, rfl⟩, rfl⟩
    have hdrive := hlone.drive hpulls rfl (cost_lt_stepsLeft hpulls)
    have hbare : s.pullInto rect out = SessionOver.drive (u.stepsLeft s.engine.nextId) u
        s.engine.nextId := by
      delta SessionOver.pullInto
      rw [hopen, hu]
    have hattended : s.attended.pullInto rect out = SessionOver.drive
        (u.stepsLeft s.engine.nextId) u.attended s.engine.nextId := by
      delta SessionOver.pullInto
      rw [hopen, hu]
      rfl
    constructor <;> rw [hbare]
    · exact hdrive.served
    · exact hdrive.lone
    · rw [hattended]
      exact hdrive.same

/-! ## Requests -/

/-- What somebody may ask of a session: pixels or a mask, in a region of their own or else in that
of the session; or the image is invalidated. -/
inductive Request
  | pull (rect : Rect) (out? : Option Region)
  | mask (rect : Rect) (out? : Option Region)
  | invalidate

/-- The answer to a request, if it has one. -/
def attend (s : SessionOver σ κ) : Request → SessionOver σ κ × Option Pulled
  | .pull rect (some out) => ((s.pullInto rect out).1, some (s.pullInto rect out).2)
  | .pull rect none => ((s.pull rect none).1, some (s.pull rect none).2)
  | .mask rect (some out) => (s, some (s.pullMaskInto rect out))
  | .mask rect none => ((s.pullMask rect none).1, some (s.pullMask rect none).2)
  | .invalidate => (s.invalidate, none)

/-- What can be seen after a request. -/
structure Report where
  pulled? : Option Pulled
  tiles : List Probe
  stats : Stats
  generated : List Rect

def Report.IsServed (r : Report) : Prop := ∀ pulled ∈ r.pulled?, pulled.outcome.IsServed

instance (r : Report) : Decidable r.IsServed :=
  inferInstanceAs (Decidable (∀ pulled ∈ r.pulled?, pulled.outcome.IsServed))

/-- Requests one after the other, with what can be seen after each of them. -/
def attendAll (s : SessionOver σ κ) : List Request → SessionOver σ κ × List Report
  | [] => (s, [])
  | request :: requests =>
    let (s, pulled?) := s.attend request
    let (after, reports) := s.attendAll requests
    (after, ⟨pulled?, s.sink.tiles, s.sink.stats, s.generated⟩ :: reports)

/-- **One request.** -/
theorem Lone.attend (h : s.Lone) (request : Request) :
    (Prompt σ → ∀ pulled ∈ (s.attend request).2, pulled.outcome.IsServed) ∧
      ((∀ pulled ∈ (s.attend request).2, pulled.outcome.IsServed) →
        (s.attend request).1.Lone ∧ s.attended.attend request =
          ((s.attend request).1.attended, (s.attend request).2)) := by
  have hsome : ∀ {pulled : Pulled}, pulled.outcome.IsServed →
      ∀ other, some pulled = some other → other.outcome.IsServed :=
    fun hserved other he => Option.some.inj he ▸ hserved
  cases request with
  | pull rect out? =>
    cases out? with
    | some out =>
      have hpull := h.pullInto rect out
      refine ⟨fun prompt => hsome (hpull.served prompt), fun hserved => ?_⟩
      have hserved := hserved _ rfl
      refine ⟨hpull.lone hserved, ?_⟩
      rw [SessionOver.attend, hpull.same hserved]
      rfl
    | none =>
      have hpull := h.pullInto rect s.out
      refine ⟨fun prompt => hsome (hpull.served prompt), fun hserved => ?_⟩
      have hserved : (s.pullInto rect s.out).2.outcome.IsServed := hserved _ rfl
      obtain ⟨mode, bare, queue, released, viewers⟩ := hpull.lone hserved
      refine ⟨⟨mode, bare, queue, released, viewers⟩, ?_⟩
      rw [SessionOver.attend, SessionOver.pull, show s.attended.out = s.out from rfl,
        hpull.same hserved]
      rfl
  | mask rect out? =>
    cases out? with
    | some out => exact ⟨fun _ => hsome (isServed_pullMaskInto s rect out), fun _ => ⟨h, rfl⟩⟩
    | none =>
      refine ⟨fun _ => hsome (isServed_pullMaskInto s rect s.maskOut), fun _ => ⟨?_, rfl⟩⟩
      obtain ⟨mode, bare, queue, released, viewers⟩ := h
      exact ⟨mode, bare, queue, released, viewers⟩
  | invalidate =>
    refine ⟨fun _ _ (he : none = some _) => (nomatch he), fun _ => ⟨?_, rfl⟩⟩
    obtain ⟨mode, bare, queue, released, viewers⟩ := h
    exact ⟨mode, bare, queue, released, viewers⟩

/-- **Requests one after the other.** -/
theorem Lone.attendAll (h : s.Lone) (requests : List Request) :
    (Prompt σ → ∀ report ∈ (s.attendAll requests).2, report.IsServed) ∧
      ((∀ report ∈ (s.attendAll requests).2, report.IsServed) →
        s.attended.attendAll requests =
          ((s.attendAll requests).1.attended, (s.attendAll requests).2)) := by
  induction requests generalizing s with
  | nil => exact ⟨fun _ _ hm => absurd hm List.not_mem_nil, fun _ => rfl⟩
  | cons request requests ih =>
    obtain ⟨hserves, hagrees⟩ := h.attend request
    refine ⟨fun prompt => ?_, fun hserved => ?_⟩
    · have hfirst := hserves prompt
      exact List.forall_mem_cons.2 ⟨hfirst, (ih (hagrees hfirst).1).1 prompt⟩
    · obtain ⟨hfirst, hrest⟩ := List.forall_mem_cons.1 hserved
      obtain ⟨hlone, hsame⟩ := hagrees hfirst
      have hafter := (ih hlone).2 hrest
      rw [SessionOver.attendAll, hsame]
      dsimp only
      rw [hafter]
      rfl

/-- **A runtime makes no difference to a session with one pull at a time.**  Take any image and any
configuration in synchronous mode, a session without a runtime and one with a runtime, over any
source that may count its calls, fail, and invalidate the image, and any requests for pixels and
masks and invalidations, one after the other.

If no call of the source waits or breaks off, then without a runtime no pull is dropped or breaks
off on account of the source.  As long as that is so, both sessions answer all requests alike, byte
for byte, and after each of them they show the same tiles, with the same states and ticks, and the
same statistics.  In the end they differ in nothing but the runtime. -/
theorem attendAll_with_runtime {info : ImageInfo} {config : Config} {studio : σ} {withMask : Bool}
    (hmode : config.mode = .synchronous)
    (hs : SessionOver.start info config studio false withMask = .ok s) (requests : List Request) :
    SessionOver.start info config studio true withMask = .ok s.attended ∧
      (Prompt σ → ∀ report ∈ (s.attendAll requests).2, report.IsServed) ∧
      ((∀ report ∈ (s.attendAll requests).2, report.IsServed) →
        (s.attended.attendAll requests).2 = (s.attendAll requests).2 ∧
          (s.attended.attendAll requests).1 = (s.attendAll requests).1.attended) := by
  obtain ⟨hstart, hlone⟩ := start_attended hmode hs
  obtain ⟨hserves, hagrees⟩ := hlone.attendAll requests
  refine ⟨hstart, hserves, fun hserved => ?_⟩
  rw [hagrees hserved]
  exact ⟨rfl, rfl⟩

end SessionOver

/-- Two cells and one tile.  The first call for the second cell fails, and the next one invalidates
the image. -/
theorem SessionOver.attendAll_with_runtime_narrow :
    ∃ s t : Session,
      let script : Script :=
        ⟨.constant 5, [⟨some ⟨1, 0⟩, .fail, "", some 1⟩, ⟨some ⟨1, 0⟩, .invalidate, "", some 1⟩], 0⟩
      let config : Config := { Config.ofTileSize 1 1 with maxTiles := 1 }
      let requests : List Request := [.pull ⟨0, 0, 2, 1⟩ none, .mask ⟨0, 0, 2, 1⟩ none, .invalidate,
        .pull ⟨0, 0, 2, 1⟩ none, .pull ⟨0, 0, 9, 9⟩ (some (.empty ⟨2, 1, 1, .uchar⟩))]
      SessionOver.start ⟨2, 1, 1, .uchar⟩ config script false true = .ok s ∧
        SessionOver.start ⟨2, 1, 1, .uchar⟩ config script true true = .ok t ∧
        (t.attendAll requests).2 = (s.attendAll requests).2 ∧
        (s.attendAll requests).2.map (fun r => r.pulled?.map (·.out.bytes.data.toList)) =
          [some [5, 0], some [0, 0], none, some [5, 0], some [5, 5]] := by
  obtain ⟨hruntime, -, hagree⟩ := @attendAll_with_runtime Script Call _ _ ⟨2, 1, 1, .uchar⟩
    { Config.ofTileSize 1 1 with maxTiles := 1 }
    ⟨.constant 5, [⟨some ⟨1, 0⟩, .fail, "", some 1⟩, ⟨some ⟨1, 0⟩, .invalidate, "", some 1⟩], 0⟩
    true rfl rfl [.pull ⟨0, 0, 2, 1⟩ none, .mask ⟨0, 0, 2, 1⟩ none, .invalidate,
      .pull ⟨0, 0, 2, 1⟩ none, .pull ⟨0, 0, 9, 9⟩ (some (.empty ⟨2, 1, 1, .uchar⟩))]
  exact ⟨_, _, rfl, hruntime, (hagree (by decide)).1, rfl⟩

end TileCache
