import TileCache.Proofs.Sink.Notices
import TileCache.Proofs.Sink.Steady
import TileCache.Sink.Alone

/-!
# A pull on its own is a run

Programs that have a sink to themselves use `Sink.pull` and `Sink.runJob`, which know nothing of
engines.  Both are runs all the same: a pull is the run in which it is begun and makes its steps one
after the other, and a computation that it waits for begins and ends in between; a job in the
background is a computation that begins and ends.  So whatever holds of all runs holds of them.

* `Stages` links an engine to a sink and the jobs that were handed out: the jobs are queued.
* `Stages.pulled` and `Stages.runJob`: what is done to the sink is a run of the engine.
* `Visited` is all that a program can make of its sink in this way, and `exists_run_of_visited` the
  run that belongs to it.
* `exists_pull_of_visited`: in such a program no pull breaks off.
-/

set_option autoImplicit false

namespace TileCache

/-- The region that a pull has delivered, if it has. -/
def Turn.delivered? : Turn → Option Region
  | .finished out => some out
  | .moved | .waiting | .broke _ => none

/-- How many steps a pull needs, not counting the look whether it is done. -/
def Pull.cost (p : Pull) : Nat :=
  2 * p.cells.length + match p.wait with
    | .nothing => 0
    | .computing _ _ | .computed _ _ _ => 1

theorem Pull.cost_wake (p : Pull) (painted : Bool) : (p.wake painted).cost = p.cost := by
  obtain ⟨out, cells, wait⟩ := p
  cases wait <;> rfl

/-- Is this a move that a pull on its own makes, with computations by `source`? -/
def Move.Serves (source : Source) : Move → Prop
  | .advance _ amid => amid = 0
  | .begin _ => True
  | .finish _ other => other = source
  | .openPull _ _ _ | .dropPull _ | .drop _ | .invalidate | .detach | .shutdown => False

/-- The regions differ in what is in their bytes at most. -/
structure Region.Alike (r s : Region) : Prop where
  same : s = { r with bytes := s.bytes }
  size : s.bytes.size = r.bytes.size

namespace Region.Alike

variable {q r s : Region} {info : ImageInfo}

theorem refl (r : Region) : r.Alike r := ⟨rfl, rfl⟩

theorem trans (h : q.Alike r) (h' : r.Alike s) : q.Alike s :=
  ⟨by rw [h'.same, h.same], h'.size.trans h.size⟩

theorem valid (h : r.Alike s) : s.valid = r.valid := by rw [h.same]

theorem isFor (h : r.Alike s) (hr : r.IsFor info) : s.IsFor info := by
  rw [h.same]
  exact ⟨hr.1, hr.2⟩

theorem isWhole (h : r.Alike s) (hr : r.IsWhole) : s.IsWhole :=
  hr.congr (by rw [h.same]) (by rw [h.same]) h.valid h.size

end Region.Alike

namespace Engine

variable {e d : Engine} {s s' : Sink} {id n : Nat} {pull next : Pull} {job : Job} {jobs : List Job}
  {source : Source} {moves : List Move}

/-! ## Logs of pulls -/

/-- The regions that a move delivers. -/
def deliveredBy (e : Engine) : Move → List Region
  | .advance id amid => ((e.advance id amid).2.1.bind Turn.delivered?).toList
  | .openPull _ _ _ | .dropPull _ | .begin _ | .finish _ _ | .drop _ | .invalidate | .detach
  | .shutdown => []

/-- The pulls that a move ends without a result: one that is dropped, or one that breaks off. -/
def leftBy (e : Engine) : Move → List Pull
  | .advance id amid =>
    if (e.faultsBy (.advance id amid)).isEmpty then [] else (e.pulls.lookup id).toList
  | .dropPull id => (e.pulls.lookup id).toList
  | .openPull _ _ _ | .begin _ | .finish _ _ | .drop _ | .invalidate | .detach | .shutdown => []

/-- What comes of a pull that is not done is what comes of its step. -/
theorem advance_of_lookup (hf : e.pulls.lookup id = some pull) (hdone : pull.isDone = false)
    (amid : Nat) :
    e.advance id amid =
      (e.dropPull id).carryOn id (e.clientOf id) (e.sink.serve pull amid) := by
  rw [advance, hf]
  simp [hdone]

/-- A step of a pull that is done delivers its region. -/
theorem delivered_of_done (hf : e.pulls.lookup id = some pull) (hdone : pull.isDone = true)
    (amid : Nat) :
    e.step (.advance id amid) = e.dropPull id ∧
      e.deliveredBy (.advance id amid) = [pull.out] ∧ e.leftBy (.advance id amid) = [] := by
  have hadvance : e.advance id amid = (e.dropPull id, some (.finished pull.out), none) := by
    rw [advance, hf]
    exact if_pos hdone
  refine ⟨congrArg Prod.fst hadvance, ?_, ?_⟩
  · rw [deliveredBy, hadvance]
    rfl
  · rw [leftBy, faultsBy, hadvance]
    rfl

/-- A step that breaks off is the end of its pull. -/
theorem left_of_broke (hf : e.pulls.lookup id = some pull) (hdone : pull.isDone = false)
    {amid : Nat} {fault : Fault} {job? : Option Job}
    (hserve : e.sink.serve pull amid = (s, .broke fault, job?)) :
    e.faultsBy (.advance id amid) = [fault] ∧ e.deliveredBy (.advance id amid) = [] ∧
      e.leftBy (.advance id amid) = [pull] := by
  have hfaults : e.faultsBy (.advance id amid) = [fault] := by
    rw [faultsBy, advance_of_lookup hf hdone, hserve]
    rfl
  refine ⟨hfaults, ?_, ?_⟩
  · rw [deliveredBy, advance_of_lookup hf hdone, hserve]
    rfl
  · rw [leftBy, hfaults, hf]
    rfl

/-! ## Engines that do nothing else -/

/-- The engine has the sink `s` and these pulls, and the computations that were queued last are
those for `jobs`. -/
structure Stages (e : Engine) (s : Sink) (pulls : List (Nat × Pull)) (jobs : List Job) :
    Prop where
  sink : e.sink = s
  hasRuntime : e.hasRuntime = true
  pulls : e.pulls = pulls
  queued : jobs.map (fun job => (⟨job, none, .nobody⟩ : Computation)) <+:
    e.computations.map (·.2)
  numbered : e.Numbered []

theorem stages_ofSink (s : Sink) : (ofSink s true).Stages s [] [] :=
  ⟨rfl, rfl, rfl, List.nil_prefix, numbered_ofSink s true⟩

/-- The jobs may be forgotten. -/
theorem Stages.forget_jobs {pulls : List (Nat × Pull)} (h : e.Stages s pulls jobs) :
    e.Stages s pulls [] :=
  ⟨h.sink, h.hasRuntime, h.pulls, List.nil_prefix, h.numbered⟩

/-! ### Computations -/

/-- A computation is found by its number, and is the only one to be forgotten by it. -/
theorem Numbered.found (h : e.Numbered []) {before after : List (Nat × Computation)}
    {c : Computation} (hl : e.computations = before ++ (n, c) :: after) :
    (∀ nc ∈ before ++ after, nc.1 ≠ n) ∧ e.computations.lookup n = some c ∧
      (e.forget n).computations = before ++ after := by
  have hdistinct := h.distinct
  rw [List.nil_append, hl, List.map_append, List.map_cons, List.nodup_middle, List.nodup_cons,
    ← List.map_append] at hdistinct
  have hothers : ∀ nc ∈ before ++ after, nc.1 ≠ n := fun nc hnc he =>
    hdistinct.1 (List.mem_map.2 ⟨nc, hnc, he⟩)
  have hbefore : ∀ nc ∈ before, nc.1 ≠ n := fun nc hnc => hothers nc (List.mem_append_left _ hnc)
  refine ⟨hothers, List.lookup_eq_some_iff.2 ⟨before, after, hl, fun nc hnc =>
    bne_iff_ne.2 (hbefore nc hnc).symm⟩, ?_⟩
  rw [Engine.forget]
  dsimp only
  rw [hl, List.eraseP_append_right _ fun nc hnc he => hbefore nc hnc (beq_iff_eq.1 he),
    List.eraseP_cons_of_pos (by simp)]

/-- A computation that begins and then ends. -/
theorem run_begin_finish (hnumbered : e.Numbered []) {before after : List (Nat × Computation)}
    {c : Computation} (hl : e.computations = before ++ (n, c) :: after) (hq : c.beganAt? = none)
    (source : Source) :
    ∃ notified, e.run [.begin n, .finish n source] = wake { e with
        sink := (e.sink.settle c.job e.sink.generation (source c.job.region)).1
        computations := before ++ after, notified }
      c.client (e.sink.settle c.job e.sink.generation (source c.job.region)).2 := by
  have hothers := (hnumbered.found hl).1
  obtain ⟨f, hf, hother, hn⟩ : ∃ f : Nat × Computation → Nat × Computation,
      (e.begin n).computations = e.computations.map f ∧ (∀ nc, nc.1 ≠ n → f nc = nc) ∧
        f (n, c) = (n, { c with beganAt? := some e.sink.generation }) :=
    ⟨_, rfl, fun nc hne => if_neg fun h => hne h.1, if_pos ⟨rfl, hq⟩⟩
  have hstay : ∀ l : List (Nat × Computation), (∀ nc ∈ l, nc.1 ≠ n) → l.map f = l := fun l hne =>
    (List.map_congr_left fun nc hnc => hother nc (hne nc hnc)).trans (List.map_id l)
  have hbegun : (e.begin n).computations =
      before ++ (n, { c with beganAt? := some e.sink.generation }) :: after := by
    rw [hf, hl, List.map_append, List.map_cons, hn,
      hstay before fun nc hnc => hothers nc (List.mem_append_left _ hnc),
      hstay after fun nc hnc => hothers nc (List.mem_append_right _ hnc)]
  have hnumbered' : (e.begin n).Numbered [] := hnumbered.step_nil (.begin n)
  obtain ⟨-, hfound, hforget⟩ := hnumbered'.found hbegun
  have hgone : (e.begin n).forget n = { e with computations := before ++ after } := by
    rw [← hforget]
    rfl
  show ∃ notified, (e.begin n).step (.finish n source) = _
  rw [step_finish_of_some source hfound, finish, hfound]
  dsimp only
  rw [hgone]
  split <;> exact ⟨_, rfl⟩

/-- **A job is done.**  The oldest one comes first. -/
theorem Stages.runJob (h : e.Stages s [] (jobs ++ [job])) (source : Source) :
    ∃ n, (e.run [.begin n, .finish n source]).Stages (s.runJob source job) [] jobs := by
  obtain ⟨rest, hrest⟩ := h.queued
  rw [List.map_append, List.map_singleton, List.append_assoc] at hrest
  obtain ⟨before, tail, hl, hbefore, htail⟩ := List.map_eq_append_iff.1 hrest.symm
  obtain ⟨⟨n, c⟩, after, rfl, hc, -⟩ := List.map_eq_cons_iff.1 htail
  obtain rfl : c = ⟨job, none, .nobody⟩ := hc
  obtain ⟨notified, hrun⟩ := run_begin_finish h.numbered hl rfl source
  refine ⟨n, ?_, ?_, ?_, ?_, h.numbered.run_nil _⟩ <;> rw [hrun]
  · rw [← h.sink]
    rfl
  · exact h.hasRuntime
  · exact h.pulls
  · show _ <+: (before ++ after).map (·.2)
    rw [List.map_append, hbefore]
    exact List.prefix_append _ _

/-! ### Steps of a pull -/

/-- A step of the only pull. -/
theorem Stages.advance_eq (h : e.Stages s [(id, pull)] jobs) (hdone : pull.isDone = false) :
    e.advance id 0 = (e.dropPull id).carryOn id (e.clientOf id) (s.serve pull 0) ∧
      (e.dropPull id).pulls = [] := by
  have hf : e.pulls.lookup id = some pull := by rw [h.pulls, List.lookup_cons_self]
  refine ⟨h.sink ▸ advance_of_lookup hf hdone 0, ?_⟩
  rw [dropPull, h.pulls]
  simp

/-- A job that finds somebody to run it is queued. -/
theorem carryOn_of_job (e : Engine) (id : Nat) {client : Client} (s : Sink) (next : Pull)
    (job : Job) (hstay : ¬ (client = .nobody ∧ (!e.hasRuntime) = true)) :
    (e.carryOn id client (s, .went next, some job)).1 = { e with
      sink := s, pulls := (id, next) :: e.pulls
      computations := (e.nextId, ⟨job, none, client⟩) :: e.computations
      nextId := e.nextId + 1 } := by
  have htake : ∀ d : Engine, d.hasRuntime = e.hasRuntime → d.takeJob client (some job) =
      ({ d with computations := (d.nextId, ⟨job, none, client⟩) :: d.computations
                nextId := d.nextId + 1 }, some d.nextId) := by
    intro d hd
    rw [takeJob, enqueue, hd, if_neg hstay]
  rw [carryOn, htake { e with sink := s } rfl]

/-- A step that needs no computation. -/
theorem Stages.went (h : e.Stages s [(id, pull)] jobs) (hdone : pull.isDone = false)
    (hserve : s.serve pull 0 = (s', .went next, none)) :
    (e.step (.advance id 0)).Stages s' [(id, next)] jobs := by
  obtain ⟨hadvance, hpulls⟩ := h.advance_eq hdone
  have hstep : e.step (.advance id 0) =
      ((e.dropPull id).carryOn id (e.clientOf id) (s', .went next, none)).1 := by
    rw [← hserve]
    exact congrArg Prod.fst hadvance
  refine ⟨?_, ?_, ?_, ?_, h.numbered.step_nil _⟩ <;> rw [hstep]
  · rfl
  · exact h.hasRuntime
  · exact congrArg (List.cons _) hpulls
  · exact h.queued

/-- A step that does not wait for the computation that it starts. -/
theorem Stages.handed (h : e.Stages s [(id, pull)] jobs) (hdone : pull.isDone = false)
    (hserve : s.serve pull 0 = (s', .went next, some job)) (hmode : s.config.mode = .background) :
    (e.step (.advance id 0)).Stages s' [(id, next)] (job :: jobs) := by
  obtain ⟨hadvance, hpulls⟩ := h.advance_eq hdone
  have hclient : e.clientOf id = .nobody := by rw [clientOf, h.sink, hmode]
  rw [hserve, hclient] at hadvance
  have hstep := (congrArg Prod.fst hadvance).trans
    (carryOn_of_job (e.dropPull id) id s' next job fun hn => by
      rw [show (e.dropPull id).hasRuntime = true from h.hasRuntime] at hn
      exact Bool.false_ne_true hn.2)
  refine ⟨?_, ?_, ?_, ?_, h.numbered.step_nil _⟩ <;>
    rw [show e.step (.advance id 0) = _ from hstep]
  · exact h.hasRuntime
  · exact congrArg (List.cons _) hpulls
  · exact List.cons_prefix_cons.2 ⟨rfl, h.queued⟩

/-- A step that waits, and the computation that it waits for. -/
theorem Stages.waited (h : e.Stages s [(id, pull)] jobs) (hdone : pull.isDone = false)
    (hserve : s.serve pull 0 = (s', .went next, some job)) (hmode : s.config.mode = .synchronous)
    (source : Source) :
    ∃ n, (e.run [.advance id 0, .begin n, .finish n source]).Stages
      (s'.settle job s'.generation (source job.region)).1
      [(id, next.wake (s'.settle job s'.generation (source job.region)).2)] jobs := by
  obtain ⟨hadvance, hpulls⟩ := h.advance_eq hdone
  have hclient : e.clientOf id = .pull id := by rw [clientOf, h.sink, hmode]
  rw [hserve, hclient] at hadvance
  have hstep := (congrArg Prod.fst hadvance).trans
    (carryOn_of_job (e.dropPull id) id s' next job fun hn => by cases hn.1)
  rw [hpulls] at hstep
  change e.step (.advance id 0) = _ at hstep
  have hqueued : (e.step (.advance id 0)).computations =
      [] ++ (e.nextId, ⟨job, none, .pull id⟩) :: e.computations :=
    congrArg Engine.computations hstep
  obtain ⟨notified, hrun⟩ :=
    run_begin_finish (h.numbered.step_nil (.advance id 0)) hqueued rfl source
  rw [hstep] at hrun
  have hall : e.run [.advance id 0, .begin e.nextId, .finish e.nextId source] = _ :=
    (congrArg (fun d : Engine => d.run [.begin e.nextId, .finish e.nextId source]) hstep).trans hrun
  refine ⟨e.nextId, ?_, ?_, ?_, ?_, h.numbered.run_nil _⟩ <;> rw [hall]
  · rfl
  · exact h.hasRuntime
  · show [if id = id then (id, next.wake _) else (id, next)] = _
    rw [if_pos rfl]
  · exact h.queued

/-- A run in which nothing is delivered, or left, or breaks off. -/
structure Silent (e : Engine) (moves : List Move) : Prop where
  delivered : collect deliveredBy e moves = []
  left : collect leftBy e moves = []
  faults : collect faultsBy e moves = []

theorem Silent.append {before after : List Move} (h : e.Silent before)
    (h' : (e.run before).Silent after) : e.Silent (before ++ after) := by
  constructor <;> rw [collect_append]
  · rw [h.delivered, h'.delivered]
    rfl
  · rw [h.left, h'.left]
    rfl
  · rw [h.faults, h'.faults]
    rfl

theorem silent_computation (e : Engine) (n : Nat) (source : Source) :
    e.Silent [.begin n, .finish n source] :=
  ⟨rfl, rfl, rfl⟩

/-- A step that goes on delivers nothing. -/
theorem silent_of_went {amid : Nat} {job? : Option Job} (hf : e.pulls.lookup id = some pull)
    (hdone : pull.isDone = false) (hserve : e.sink.serve pull amid = (s, .went next, job?)) :
    e.Silent [.advance id amid] := by
  have hfaults : e.faultsBy (.advance id amid) = [] := faultsBy_of_served fun other ho => by
    obtain rfl := Option.some.inj (hf.symm.trans ho)
    exact ⟨s, next, job?, hserve⟩
  constructor <;> rw [collect_singleton]
  · rw [deliveredBy, advance_of_lookup hf hdone, hserve, carryOn]
    dsimp only
    split <;> rfl
  · rw [leftBy, hfaults]
    rfl
  · exact hfaults

/-- What a pull on its own has come to, as the run of `moves`. -/
def Ended (e : Engine) (moves : List Move) (s : Sink) (jobs : List Job) : Finished → Prop
  | .filled out => (e.run moves).Stages s [] jobs ∧ collect deliveredBy e moves = [out] ∧
      collect leftBy e moves = []
  | .broke fault => collect faultsBy e moves = [fault]
  | .unfinished => False

/-- Some moves that deliver nothing come first. -/
theorem Ended.prepend {before after : List Move} {finished : Finished}
    (h : (e.run before).Ended after s jobs finished) (hsilent : e.Silent before) :
    e.Ended (before ++ after) s jobs finished := by
  cases finished with
  | filled out =>
    obtain ⟨hstages, hout, hnone⟩ := h
    refine ⟨?_, ?_, ?_⟩
    · rwa [run_append]
    · rw [collect_append, hsilent.delivered, hout]
      rfl
    · rw [collect_append, hsilent.left, hnone]
      rfl
  | broke fault =>
    show collect faultsBy e _ = _
    rw [collect_append, hsilent.faults]
    exact h
  | unfinished => exact h.elim

/-- There is a run of the moves of a pull on its own that comes to this. -/
def Plays (e : Engine) (source : Source) (result : Sink × Finished × List Job) : Prop :=
  ∃ moves, (∀ move ∈ moves, move.Serves source) ∧ e.Ended moves result.1 result.2.2 result.2.1

theorem Plays.prepend {before : List Move} {result : Sink × Finished × List Job}
    (hsilent : e.Silent before) (hbefore : ∀ move ∈ before, move.Serves source)
    (h : (e.run before).Plays source result) : e.Plays source result := by
  obtain ⟨after, hafter, hended⟩ := h
  exact ⟨before ++ after, fun move hm => (List.mem_append.1 hm).elim (hbefore move)
    (hafter move), hended.prepend hsilent⟩

/-- The last look at a pull. -/
theorem Stages.plays_of_done (h : e.Stages s [(id, pull)] jobs) (hdone : pull.isDone = true) :
    e.Plays source (s, .filled pull.out, jobs) := by
  have hf : e.pulls.lookup id = some pull := by rw [h.pulls, List.lookup_cons_self]
  obtain ⟨hstep, hdelivered, hleft⟩ := delivered_of_done hf hdone 0
  refine ⟨[.advance id 0], List.forall_mem_singleton.2 rfl, ?_, ?_, ?_⟩
  · show (e.step (.advance id 0)).Stages s [] jobs
    rw [hstep]
    refine ⟨h.sink, h.hasRuntime, ?_, h.queued, hstep ▸ h.numbered.step_nil _⟩
    rw [dropPull, h.pulls]
    simp
  · rw [collect_singleton, hdelivered]
  · rw [collect_singleton, hleft]

/-- A step that comes to write a cell brings the pull nearer to its end. -/
theorem cost_of_due {amid : Nat} {tile? : Option Tile} {cell : Rect} {cells : List Rect}
    {job? : Option Job} (due : s.Due amid pull s' tile? cell cells job?) :
    2 * cells.length < pull.cost := by
  cases due <;> simp only [Pull.cost, List.length_cons] <;> omega

/-- A step that comes to write a cell hands out jobs in the background only. -/
theorem mode_of_due {amid : Nat} {tile? : Option Tile} {cell : Rect} {cells : List Rect}
    (due : s.Due amid pull s' tile? cell cells (some job)) : s.config.mode = .background := by
  cases due with
  | background _ mode => exact mode

/-- **The steps of a pull on its own are a run.** -/
theorem Stages.runPull (source : Source) {fuel : Nat} (h : e.Stages s [(id, pull)] jobs)
    (hawake : pull.isWaiting = false) (hfuel : pull.cost < fuel) :
    e.Plays source (s.runPull source fuel pull jobs) := by
  induction fuel generalizing e s pull jobs with
  | zero => exact absurd hfuel (Nat.not_lt_zero _)
  | succ fuel ih =>
    have hf : e.pulls.lookup id = some pull := by rw [h.pulls, List.lookup_cons_self]
    have hone : ∀ move ∈ [Move.advance id 0], move.Serves source := List.forall_mem_singleton.2 rfl
    cases hdone : pull.isDone with
    | true =>
      rw [Sink.runPull, if_pos hdone]
      exact h.plays_of_done hdone
    | false =>
      have silent : ∀ {s' : Sink} {next : Pull} {job? : Option Job},
          s.serve pull 0 = (s', .went next, job?) → e.Silent [.advance id 0] :=
        fun hserve => silent_of_went hf hdone (h.sink ▸ hserve)
      -- a step that writes a cell, and then the rest of the pull
      have wrote : ∀ {s' after : Sink} {tile? : Option Tile} {cell : Rect} {cells : List Rect}
          {job? : Option Job} {out : Region}, s.Due 0 pull s' tile? cell cells job? →
          s.serve pull 0 = (after, .went ⟨out, cells, .nothing⟩, job?) →
          e.Plays source (after.runPull source fuel ⟨out, cells, .nothing⟩
            (job?.toList ++ jobs)) := by
        intro s' after tile? cell cells job? out due hserve
        have hcost : (Pull.mk out cells .nothing).cost < fuel :=
          Nat.lt_of_lt_of_le (cost_of_due due) (Nat.le_of_lt_succ hfuel)
        cases job? with
        | none =>
          exact Plays.prepend (silent hserve) hone (ih (h.went hdone hserve) rfl hcost)
        | some job =>
          exact Plays.prepend (silent hserve) hone
            (ih (h.handed hdone hserve (mode_of_due due)) rfl hcost)
      have serving := Sink.serving s pull 0
      rw [Sink.runPull, if_neg (by rw [hdone]; exact Bool.false_ne_true)]
      generalize hserve : s.serve pull 0 = r at serving
      cases serving with
      | idle rests => simp [hawake, hdone] at rests
      | @waits out cells cell d job asked mode =>
        obtain ⟨n, hstages⟩ := h.waited hdone hserve mode source
        refine Plays.prepend ((silent hserve).append (silent_computation _ n source)) ?_
          (ih hstages (Pull.isWaiting_wake _ _) ?_)
        · exact List.forall_mem_cons.2 ⟨rfl, List.forall_mem_cons.2 ⟨trivial,
            List.forall_mem_singleton.2 rfl⟩⟩
        · show 2 * cells.length + 1 < fuel
          simp only [Pull.cost, List.length_cons] at hfuel
          omega
      | @zeroed _ _ _ _ _ job? _ due _ =>
        cases job? with
        | none => exact wrote due hserve
        | some job => exact wrote due hserve
      | @copied _ _ _ _ _ _ job? _ due _ _ _ =>
        cases job? with
        | none => exact wrote due hserve
        | some job => exact wrote due hserve
      | @broke _ _ _ _ _ job? fault due =>
        have hbroke : collect faultsBy e [.advance id 0] = [fault] :=
          (List.append_nil _).trans (left_of_broke hf hdone (h.sink ▸ hserve)).1
        cases job? with
        | none => exact ⟨_, hone, hbroke⟩
        | some job => exact ⟨_, hone, hbroke⟩
      | stopped _ =>
        exact ⟨_, hone, (List.append_nil _).trans (left_of_broke hf hdone (h.sink ▸ hserve)).1⟩

/-! ## Pulls -/

/-- A pull begins when it has its buffer. -/
theorem openPull_of_buffer {rect : Rect} {out buffer : Region} (hb : out.buffer rect = .ok buffer) :
    e.openPull rect out = .ok ({ e with
      pulls := (e.nextId, ⟨buffer, buffer.valid.cells e.sink.size, .nothing⟩) :: e.pulls
      nextId := e.nextId + 1 }, e.nextId) := by
  rw [Engine.openPull, e.sink.openPull_of_buffer hb]
  rfl

theorem openPull_of_buffer_error {rect : Rect} {out : Region} {setback : Setback}
    (hb : out.buffer rect = .error setback) : e.openPull rect out = .error setback := by
  rw [Engine.openPull, Sink.openPull, hb]
  rfl

/-- **A pull on its own is a run**, which begins with the pull. -/
theorem Stages.pulled (h : e.Stages s [] jobs) {rect : Rect} {out : Region}
    (isRegion : ∃ info, out.IsFor info) {result : Sink × Finished × List Job}
    (hpull : s.pull source rect out jobs = .ok result) :
    ∃ moves, (∀ move ∈ moves, move.Serves source) ∧
      e.Ended (.openPull rect out isRegion :: moves) result.1 result.2.2 result.2.1 := by
  cases hb : out.buffer rect with
  | error error =>
    rw [Sink.pull_of_buffer_error hb] at hpull
    cases hpull
  | ok buffer =>
    obtain rfl := h.sink
    have hopen := e.sink.openPull_of_buffer hb
    have hbegun := openPull_of_buffer (e := e) hb
    rw [Sink.pull_of_openPull hopen] at hpull
    obtain rfl := Except.ok.inj hpull
    have hstages : (e.run [.openPull rect out isRegion]).Stages e.sink
        [(e.nextId, ⟨buffer, buffer.valid.cells e.sink.size, .nothing⟩)] jobs := by
      have hstep : e.run [.openPull rect out isRegion] = _ := step_openPull_of_ok isRegion hbegun
      refine ⟨?_, ?_, ?_, ?_, h.numbered.run_nil _⟩ <;> rw [hstep]
      · exact h.hasRuntime
      · exact congrArg (List.cons _) h.pulls
      · exact h.queued
    obtain ⟨moves, hmoves, hended⟩ := hstages.runPull source rfl (Nat.lt_succ_self _)
    exact ⟨moves, hmoves, Ended.prepend hended ⟨rfl, rfl, rfl⟩⟩

/-- Is every call of the moves a call of `source`? -/
def Uses (source : Source) (moves : List Move) : Prop :=
  ∀ n other, Move.finish n other ∈ moves → other = source

theorem Uses.of_append {before after : List Move} (h : Uses source (before ++ after)) :
    Uses source before :=
  fun n other hm => h n other (List.mem_append_left _ hm)

theorem Uses.append {before after : List Move} (h : Uses source before) (h' : Uses source after) :
    Uses source (before ++ after) :=
  fun n other hm => (List.mem_append.1 hm).elim (h n other) (h' n other)

theorem PullInto.append {info : ImageInfo} {before after : List Move} (h : PullInto info before)
    (h' : PullInto info after) : PullInto info (before ++ after) :=
  fun rect out isRegion hm =>
    (List.mem_append.1 hm).elim (h rect out isRegion) (h' rect out isRegion)

theorem Uses.keepFrames (h : Uses source moves) (hk : source.KeepsFrame) : KeepFrames moves :=
  fun n other hm => h n other hm ▸ hk

theorem Uses.keepBuffers (h : Uses source moves) (hk : source.KeepsBuffer) : KeepBuffers moves :=
  fun n other hm => h n other hm ▸ hk

/-- The moves of a pull on its own. -/
theorem uses_of_serves {info : ImageInfo} (rect : Rect) {out : Region}
    (isRegion : ∃ info, out.IsFor info) (hout : out.IsFor info)
    (h : ∀ move ∈ moves, move.Serves source) :
    Uses source (.openPull rect out isRegion :: moves) ∧
      PullInto info (.openPull rect out isRegion :: moves) := by
  refine ⟨fun n other hm => ?_, fun rect' out' isRegion' hm => ?_⟩
  · rcases List.mem_cons.1 hm with heq | hm
    · cases heq
    · exact h _ hm
  · rcases List.mem_cons.1 hm with heq | hm
    · obtain ⟨-, rfl⟩ := Move.openPull.inj heq
      exact hout
    · exact (h _ hm).elim

end Engine

/-! ## Programs that have a sink to themselves -/

namespace Sink

variable {source : Source} {info : ImageInfo} {start s s' : Sink} {jobs jobs' : List Job}
  {rect : Rect} {out out' filled : Region}

/-- What a program can make of its sink `start` with pulls into regions for `info`, with the jobs
that it has been given and can still do. -/
inductive Visited (source : Source) (info : ImageInfo) (start : Sink) : Sink → List Job → Prop
  | new : Visited source info start start []
  | pulled {s s' : Sink} {jobs jobs' : List Job} {rect : Rect} {out filled : Region}
      (before : Visited source info start s jobs) (isFor : out.IsFor info)
      (pull : s.pull source rect out jobs = .ok (s', .filled filled, jobs')) :
      Visited source info start s' jobs'
  /-- The oldest job is done. -/
  | done {s : Sink} {jobs : List Job} {job : Job}
      (before : Visited source info start s (jobs ++ [job])) :
      Visited source info start (s.runJob source job) jobs
  /-- Nobody ever does the jobs. -/
  | left {s : Sink} {jobs : List Job} (before : Visited source info start s jobs) :
      Visited source info start s []

/-- All jobs are done, the oldest first. -/
theorem Visited.doneAll (h : Visited source info start s jobs) :
    Visited source info start (jobs.reverse.foldl (·.runJob source ·) s) [] := by
  induction jobs using List.reverseRecOn generalizing s with
  | nil => exact h
  | append_singleton jobs job ih =>
    rw [List.reverse_append]
    exact ih h.done

/-- **What a program makes of its sink is a run.** -/
theorem exists_run_of_visited (h : Visited source info start s jobs) :
    ∃ moves, Engine.Uses source moves ∧ Engine.PullInto info moves ∧
      ((Engine.ofSink start true).run moves).Stages s [] jobs := by
  induction h with
  | new =>
    exact ⟨[], fun _ _ hm => absurd hm List.not_mem_nil, fun _ _ _ hm => absurd hm List.not_mem_nil,
      Engine.stages_ofSink start⟩
  | @pulled s s' jobs jobs' rect out filled _ isFor pull ih =>
    obtain ⟨before, huses, hinto, hstages⟩ := ih
    obtain ⟨moves, hmoves, hended, -, -⟩ := hstages.pulled ⟨info, isFor⟩ pull
    obtain ⟨huses', hinto'⟩ := Engine.uses_of_serves rect ⟨info, isFor⟩ isFor hmoves
    refine ⟨_, huses.append huses', hinto.append hinto', ?_⟩
    rw [Engine.run_append]
    exact hended
  | @done s jobs job _ ih =>
    obtain ⟨before, huses, hinto, hstages⟩ := ih
    obtain ⟨n, hdone⟩ := hstages.runJob source
    refine ⟨before ++ [.begin n, .finish n source], huses.append ?_, hinto.append ?_, ?_⟩
    · intro m other hm
      obtain ⟨-, rfl⟩ : m = n ∧ other = source := by simpa using hm
      rfl
    · intro rect out isRegion hm
      simp at hm
    · rw [Engine.run_append]
      exact hdone
  | left _ ih =>
    obtain ⟨before, huses, hinto, hstages⟩ := ih
    exact ⟨before, huses, hinto, hstages.forget_jobs⟩

/-! ### What is filled -/

/-- A step changes what is in the bytes of the region, and nothing else of it. -/
theorem alike_of_serving {amid : Nat} {pull next : Pull} {job? : Option Job}
    (serving : s.Serving amid pull (s', .went next, job?)) : pull.out.Alike next.out := by
  refine ⟨Engine.out_of_serving serving, ?_⟩
  cases serving with
  | idle _ => rfl
  | waits _ _ => rfl
  | zeroed _ painted => exact Region.size_bytes_paint painted
  | copied _ _ _ copy => exact Region.size_bytes_copyFrom copy

theorem alike_of_runPull {fuel : Nat} {pull : Pull}
    (h : s.runPull source fuel pull jobs = (s', .filled filled, jobs')) :
    pull.out.Alike filled := by
  induction fuel generalizing s pull jobs with
  | zero => cases (Prod.mk.inj (Prod.mk.inj h).2).1
  | succ fuel ih =>
    rw [runPull] at h
    split at h
    · obtain ⟨-, hrest⟩ := Prod.mk.inj h
      exact Finished.filled.inj (Prod.mk.inj hrest).1 ▸ .refl _
    · have serving := Sink.serving s pull 0
      generalize s.serve pull 0 = r at h serving
      obtain ⟨after, served, job?⟩ := r
      cases served with
      | broke fault => cases job? <;> cases (Prod.mk.inj (Prod.mk.inj h).2).1
      | went next =>
        refine (alike_of_serving serving).trans ?_
        cases job? with
        | none => exact ih h
        | some job =>
          dsimp only at h
          split at h
          · exact Engine.out_wake next _ ▸ ih h
          · exact ih h

/-- What a pull fills is the buffer that it got. -/
theorem exists_buffer_of_pull
    (h : s.pull source rect out jobs = .ok (s', .filled filled, jobs')) :
    ∃ buffer, out.buffer rect = .ok buffer ∧ buffer.Alike filled := by
  cases hb : out.buffer rect with
  | error error =>
    rw [pull_of_buffer_error hb] at h
    cases h
  | ok buffer =>
    rw [pull_of_openPull (s.openPull_of_buffer hb)] at h
    exact ⟨buffer, rfl, alike_of_runPull (Except.ok.inj h)⟩

theorem valid_of_pull (hout : out.IsFor info)
    (h : s.pull source rect out jobs = .ok (s', .filled filled, jobs')) :
    filled.IsFor info ∧ filled.valid = rect.intersect info.bounds := by
  obtain ⟨buffer, hb, halike⟩ := exists_buffer_of_pull h
  obtain ⟨-, -, rfl⟩ := Region.buffer_eq_ok_iff.1 hb
  exact ⟨halike.isFor ⟨hout.1, hout.2⟩, halike.valid.trans (congrArg rect.intersect hout.1)⟩

/-- **A program that has its sink to itself never sees a pull break off**, if its source writes into
buffers and a pixel has no more than four bytes.  What it pulls is a whole region. -/
theorem exists_pull_of_visited {config : Config} {withMask : Bool}
    (hs : Sink.create info config true withMask = .ok start) (hfour : info.bytesPerPixel ≤ 4)
    (hk : source.KeepsBuffer) (h : Visited source info start s jobs) (hout : out.IsFor info)
    (hb : out.buffer rect = .ok out') :
    ∃ s' filled jobs', s.pull source rect out jobs = .ok (s', .filled filled, jobs') ∧
      filled.IsFor info ∧ filled.valid = rect.intersect info.bounds ∧ filled.IsWhole := by
  have hpull : s.pull source rect out jobs = _ :=
    pull_of_openPull (s.openPull_of_buffer hb) jobs
  obtain ⟨before, huses, hinto, hstages⟩ := exists_run_of_visited h
  obtain ⟨moves, hmoves, hended⟩ := hstages.pulled ⟨info, hout⟩ hpull
  obtain ⟨huses', hinto'⟩ := Engine.uses_of_serves rect ⟨info, hout⟩ hout hmoves
  have hsteady := Engine.steady_run hs hfour ((huses.append huses').keepBuffers hk)
    (hinto.append hinto')
  rw [Engine.collect_append, List.append_eq_nil_iff] at hsteady
  generalize hrun : s.runPull source (2 * (out'.valid.cells s.size).length + 1)
    ⟨out', out'.valid.cells s.size, .nothing⟩ jobs = result at hpull hended
  obtain ⟨s', finished, jobs'⟩ := result
  cases finished with
  | broke fault =>
    rw [show Engine.collect Engine.faultsBy _ _ = [fault] from hended] at hsteady
    cases hsteady.2
  | unfinished => exact hended.elim
  | filled filled =>
    obtain ⟨hfor, hvalid⟩ := valid_of_pull hout hpull
    exact ⟨s', filled, jobs', hpull, hfor, hvalid,
      (alike_of_runPull hrun).isWhole (Region.isWhole_of_buffer hb)⟩

end Sink

end TileCache
