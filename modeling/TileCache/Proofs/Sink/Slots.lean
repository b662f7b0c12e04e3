import TileCache.Proofs.Sink.Allocation

/-!
# Where the slots of a cache are

A tile in computation waits for one job.  Most jobs come back: at the end of a call, however it
ended, and when a computation is dropped that has begun.  Those that do not come back are the
buffers that nobody had begun to fill, of computations that were dropped in the queue or were never
put there for want of a runtime.  `Engine.lost` lists them along a run.

`Accounted` says that the tiles in computation are those of the jobs that are out and of the jobs
that are lost, one for each.  Every move keeps this (`Accounted.step`).  So a cache with nothing
under way loses a slot in these two ways only, and without them it has a tile for every cell that
can have a buffer.
-/

set_option autoImplicit false

namespace TileCache

/-- Does the move leave the runtime alone, and the computations that are under way? -/
def Move.Spares : Move → Prop
  | .drop _ | .shutdown => False
  | .openPull _ _ _ | .advance _ _ | .dropPull _ | .begin _ | .finish _ _ | .invalidate
  | .detach => True

/-- The job of a computation that has not begun. -/
def Computation.queued? (c : Computation) : Option Job :=
  match c.beganAt? with
  | none => some c.job
  | some _ => none

section

variable {State Event Entry : Type}

/-- What `log` says of the events that take a state on, one after the other. -/
def collectAlong (step : State → Event → State) (log : State → Event → List Entry) :
    State → List Event → List Entry
  | _, [] => []
  | s, event :: events => log s event ++ collectAlong step log (step s event) events

theorem collectAlong_append (step : State → Event → State) (log : State → Event → List Entry)
    (s : State) (before after : List Event) :
    collectAlong step log s (before ++ after) =
      collectAlong step log s before ++ collectAlong step log (before.foldl step s) after := by
  induction before generalizing s with
  | nil => rfl
  | cons event before ih =>
    rw [List.cons_append, collectAlong, collectAlong, ih, List.append_assoc]
    rfl

theorem collectAlong_singleton (step : State → Event → State) (log : State → Event → List Entry)
    (s : State) (event : Event) : collectAlong step log s [event] = log s event :=
  List.append_nil _

theorem collectAlong_concat (step : State → Event → State) (log : State → Event → List Entry)
    (s : State) (events : List Event) (event : Event) :
    collectAlong step log s (events ++ [event]) =
      collectAlong step log s events ++ log (events.foldl step s) event := by
  rw [collectAlong_append, collectAlong_singleton]

end

namespace Engine

variable {e : Engine} {move : Move} {id : Nat} {gone : List Job}

/-! ## Along a run -/

/-- What `log` says of the moves of a run, one after the other. -/
def collect {α : Type} (log : Engine → Move → List α) (e : Engine) (moves : List Move) : List α :=
  collectAlong step log e moves

theorem collect_append {α : Type} (log : Engine → Move → List α) (e : Engine)
    (before after : List Move) :
    collect log e (before ++ after) = collect log e before ++ collect log (e.run before) after :=
  collectAlong_append step log e before after

theorem collect_singleton {α : Type} (log : Engine → Move → List α) (e : Engine) (move : Move) :
    collect log e [move] = log e move :=
  collectAlong_singleton step log e move

theorem collect_concat {α : Type} (log : Engine → Move → List α) (e : Engine) (moves : List Move)
    (move : Move) :
    collect log e (moves ++ [move]) = collect log e moves ++ log (e.run moves) move :=
  collectAlong_concat step log e moves move

/-- Is every move of the run allowed in the state that it finds? -/
def Throughout (allowed : Engine → Move → Prop) : Engine → List Move → Prop
  | _, [] => True
  | e, move :: moves => allowed e move ∧ Throughout allowed (e.step move) moves

theorem throughout_concat {allowed : Engine → Move → Prop} {moves : List Move} :
    Throughout allowed e (moves ++ [move]) ↔
      Throughout allowed e moves ∧ allowed (e.run moves) move := by
  induction moves generalizing e with
  | nil => exact ⟨fun h => ⟨trivial, h.1⟩, fun h => ⟨h.2, trivial⟩⟩
  | cons first moves ih =>
    rw [List.cons_append, Throughout, Throughout, ih, and_assoc]
    exact Iff.rfl

/-- What holds of all moves that are allowed holds of all moves of such a run. -/
theorem Throughout.forall {allowed : Engine → Move → Prop} {P : Move → Prop}
    (hP : ∀ e move, allowed e move → P move) {moves : List Move} (h : Throughout allowed e moves) :
    ∀ move ∈ moves, P move := by
  induction moves generalizing e with
  | nil => exact fun _ hm => absurd hm List.not_mem_nil
  | cons first moves ih => exact List.forall_mem_cons.2 ⟨hP e first h.1, ih h.2⟩

/-- The jobs that a move loses. -/
def lostBy (e : Engine) : Move → List Job
  | .advance id amid =>
    match e.pulls.lookup id with
    | none => []
    | some pull =>
      if e.clientOf id = .nobody ∧ !e.hasRuntime then (e.sink.serve pull amid).2.2.toList else []
  | .drop id => ((e.computations.lookup id).bind Computation.queued?).toList
  | .shutdown => e.computations.flatMap fun nc => nc.2.queued?.toList
  | .openPull _ _ _ | .dropPull _ | .begin _ | .finish _ _ | .invalidate | .detach => []

/-- The jobs that are lost in a run. -/
def lost (e : Engine) (moves : List Move) : List Job := collect lostBy e moves

/-- In an open sink the tiles in computation are those of the jobs that are out and of those that
are gone. -/
def Accounted (e : Engine) (gone : List Job) : Prop :=
  e.sink.cache.isOpen = true → e.sink.cache.Accounts (e.jobs ++ gone)

/-- With no job out and none lost nobody computes. -/
theorem Accounted.isIdle (h : e.Accounted []) (ho : e.sink.cache.isOpen = true)
    (hc : e.computations = []) : e.sink.cache.IsIdle := by
  have haccounts := h ho
  rw [jobs, hc] at haccounts
  exact Cache.isIdle_iff_accounts.2 haccounts

/-! ## Steps of pulls -/

/-- The job that a step hands out is put among the others, unless nobody is there to run it. -/
theorem jobs_carryOn (e : Engine) (id : Nat) (client : Client) (r : Sink × Served × Option Job) :
    (e.carryOn id client r).1.jobs =
      if client = .nobody ∧ !e.hasRuntime then e.jobs else r.2.2.toList ++ e.jobs := by
  obtain ⟨s, served, job?⟩ := r
  have take : ∀ d : Engine, (d.takeJob client job?).1.jobs =
      if client = .nobody ∧ !d.hasRuntime then d.jobs else job?.toList ++ d.jobs := by
    intro d
    cases job? with
    | none =>
      rw [Option.toList_none, List.nil_append, ite_self]
      rfl
    | some job =>
      rw [takeJob, enqueue]
      split <;> rfl
  cases served <;> exact take { e with sink := s }

theorem serve_of_isDone {s : Sink} {pull : Pull} (h : pull.isDone = true) (amid : Nat) :
    (s.serve pull amid).2.2 = none := by
  obtain ⟨out, cells, wait⟩ := pull
  cases cells with
  | cons cell cells => cases h
  | nil => cases wait <;> rfl

/-- What a step of a pull leaves in the cache, and what it hands out. -/
theorem Accounted.asks (hs : e.Sound) (h : e.Accounted gone) {pull : Pull}
    (hg : ∀ cell, Sink.IsDue pull cell → e.sink.cache.size.IsCell cell) {c : Cache}
    {job? : Option Job} (ha : e.sink.Asks pull c job?) (hopen : c.isOpen = true) :
    c.Accounts (job?.toList ++ (e.jobs ++ gone)) := by
  have hset := (hs.asks hg ha).2.2.1
  have haccounts := h (hset.isOpen ▸ hopen)
  rcases ha with ⟨-, rfl, rfl⟩ | ⟨cell, acquired, hnext, hacq, rfl⟩
  · exact haccounts
  · have hcell := hg cell (.inl (Pull.mem_of_next? hnext))
    cases acquired with
    | compute job => exact haccounts.acquire_compute hs.cache hcell hacq
    | ready _ => exact haccounts.acquire hs.cache hacq fun _ hj => by cases hj
    | unavailable => exact haccounts.acquire hs.cache hacq fun _ hj => by cases hj
    | broke _ => exact haccounts.acquire hs.cache hacq fun _ hj => by cases hj

theorem Accounted.advance (hs : e.Sound) (h : e.Accounted gone) (id amid : Nat) :
    (e.advance id amid).1.Accounted (gone ++ e.lostBy (.advance id amid)) := by
  rw [Engine.advance, lostBy]
  cases hf : e.pulls.lookup id with
  | none => rwa [List.append_nil]
  | some pull =>
    dsimp only
    split
    · rename_i hdone
      rw [serve_of_isDone hdone, Option.toList_none, ite_self, List.append_nil]
      exact h
    · intro hopen
      have hasks := (Sink.serving e.sink pull amid).asks
      rw [sink_carryOn] at hopen ⊢
      have haccounts := h.asks hs (hs.onGrid _ (mem_of_lookup hf)) hasks hopen
      rw [jobs_carryOn]
      refine haccounts.perm ?_
      show List.Perm _ ((if e.clientOf id = .nobody ∧ !e.hasRuntime then e.jobs
        else (e.sink.serve pull amid).2.2.toList ++ e.jobs) ++ _)
      split
      · -- the job is lost
        rw [← List.append_assoc e.jobs]
        exact List.perm_append_comm
      · rw [List.append_nil, List.append_assoc]

/-! ## Ends of computations -/

theorem accounted_wake {client : Client} {painted : Bool} :
    (e.wake client painted).Accounted gone ↔ e.Accounted gone := by
  rw [wake_eq]
  exact Iff.rfl

/-- A computation is forgotten after its buffer has come back. -/
theorem Accounted.comeBack (h : e.Accounted gone) {c : Computation}
    (hf : e.computations.lookup id = some c) {s : Sink}
    (hset : e.sink.cache.SameSetting s.cache)
    (ht : ∀ j : Nat, j ≠ c.job.tile → s.cache.tiles[j]? = e.sink.cache.tiles[j]?)
    (hfree : s.cache.isOpen = true →
      ∀ t, s.cache.tiles[c.job.tile]? = some t → t.state ≠ .computing)
    (notified : List Rect) : Accounted { e.forget id with sink := s, notified } gone := by
  intro hopen
  have hperm : (e.jobs ++ gone).Perm (c.job :: ((e.forget id).jobs ++ gone)) :=
    (perm_forget hf).append_right gone
  exact ((h (hset.isOpen ▸ hopen)).perm hperm).of_tiles_ne ht (hfree hopen)

theorem Accounted.abandoned (h : e.Accounted gone) {c : Computation}
    (hf : e.computations.lookup id = some c) (region : Region) (notified : List Rect) :
    Accounted { e.forget id with
      sink := { e.sink with cache := e.sink.cache.abandon c.job.tile region }, notified } gone :=
  h.comeBack (s := { e.sink with cache := e.sink.cache.abandon c.job.tile region }) hf
    (Cache.sameSetting_abandon _ _ _) (fun _ hj => Cache.getElem?_abandon_ne hj _)
    (fun ho _ => Cache.free_abandon_self ((Cache.sameSetting_abandon _ _ _).isOpen ▸ ho)) notified

theorem Accounted.settled (h : e.Accounted gone) {c : Computation}
    (hf : e.computations.lookup id = some c) (beganAt : Nat) (answer : Answer)
    (notified : List Rect) :
    Accounted { e.forget id with
      sink := (e.sink.settle c.job beganAt answer).1, notified } gone := by
  rcases settle_eq e.sink c.job beganAt answer with ⟨succeeded, -, hs⟩ | ⟨-, hs⟩
  · rw [hs]
    have hset :=
      Cache.sameSetting_complete e.sink.cache c.job.tile (answer.stamped beganAt) succeeded
    exact h.comeBack hf hset (fun _ hj => Cache.getElem?_complete_ne hj _ _)
      (fun ho _ => Cache.free_complete_self (hset.isOpen ▸ ho)) notified
  · rw [hs]
    exact h.abandoned hf _ notified

theorem Accounted.finish (h : e.Accounted gone) (source : Source) {c : Computation}
    (hf : e.computations.lookup id = some c) :
    (e.finish id (source c.job.region)).Accounted gone := by
  rw [Engine.finish, hf]
  cases hb : c.beganAt? with
  | none =>
    simp only [hb]
    exact h
  | some beganAt =>
    simp only [hb]
    rw [accounted_wake]
    split
    · exact h.settled hf _ _ _
    · exact h.settled hf _ _ _

/-- A computation that is dropped loses its job if it has not begun. -/
theorem Accounted.drop (h : e.Accounted gone) (id : Nat) :
    (e.drop id).Accounted (gone ++ e.lostBy (.drop id)) := by
  rw [Engine.drop, lostBy]
  cases hf : e.computations.lookup id with
  | none =>
    rw [Option.bind_none, Option.toList_none, List.append_nil]
    exact h
  | some c =>
    rw [Option.bind_some, Computation.queued?]
    dsimp only
    rw [accounted_wake]
    cases hb : c.beganAt? with
    | none =>
      intro hopen
      have hperm : (c.job :: ((e.forget id).jobs ++ gone)).Perm
          ((e.forget id).jobs ++ (gone ++ [c.job])) := by
        rw [← List.append_assoc]
        exact (List.perm_append_singleton _ _).symm
      exact (h hopen).perm (((perm_forget hf).append_right gone).trans hperm)
    | some beganAt =>
      rw [Option.toList_none, List.append_nil]
      exact h.abandoned hf _ e.notified

theorem computations_drop_of_cons {n : Nat} {c : Computation} {cs : List (Nat × Computation)}
    (hc : e.computations = (n, c) :: cs) : (e.drop n).computations = cs := by
  have hf : e.computations.lookup n = some c := by rw [hc, List.lookup_cons_self]
  rw [computations_drop hf, forget, hc, List.eraseP_cons_of_pos (by simp)]

/-- The end of the runtime drops all computations, one after the other. -/
theorem accounted_foldl_drop : ∀ (cs : List (Nat × Computation)) {e : Engine} {gone : List Job},
    e.computations = cs → e.Accounted gone →
      ((cs.map (·.1)).foldl Engine.drop e).Accounted
        (gone ++ cs.flatMap fun nc => nc.2.queued?.toList)
  | [], e, gone, _, h => by rwa [List.flatMap_nil, List.append_nil]
  | (n, c) :: cs, e, gone, hc, h => by
    have hf : e.computations.lookup n = some c := by rw [hc, List.lookup_cons_self]
    have hdrop := h.drop n
    rw [lostBy, hf, Option.bind_some] at hdrop
    rw [List.flatMap_cons, ← List.append_assoc]
    exact accounted_foldl_drop cs (computations_drop_of_cons hc) hdrop

/-! ## Runs -/

/-- **Every slot is accounted for**: a move loses the jobs that `lostBy` lists, and no others. -/
theorem Accounted.step (hs : e.Sound) (h : e.Accounted gone) (move : Move) :
    (e.step move).Accounted (gone ++ e.lostBy move) := by
  cases move with
  | openPull rect out hr =>
    rw [lostBy, List.append_nil]
    cases ho : e.openPull rect out with
    | error error => rwa [step_openPull_of_error hr ho]
    | ok dn =>
      obtain ⟨out', -, hd⟩ := openPull_eq_ok ho
      rw [step_openPull_of_ok hr ho, hd]
      exact h
  | advance id amid => exact h.advance hs id amid
  | dropPull id =>
    rw [lostBy, List.append_nil]
    exact h
  | begin id =>
    rw [lostBy, List.append_nil]
    exact fun ho => jobs_begin e id ▸ h ho
  | finish id source =>
    rw [lostBy, List.append_nil]
    cases hf : e.computations.lookup id with
    | none => rwa [step_finish_of_none source hf]
    | some c =>
      rw [step_finish_of_some source hf]
      exact h.finish source hf
  | drop id => exact h.drop id
  | invalidate =>
    rw [lostBy, List.append_nil]
    exact h
  | detach =>
    rw [lostBy, List.append_nil]
    show e.detach.Accounted gone
    rw [Engine.detach, Sink.detach]
    split
    · exact h
    · intro ho
      cases ho
    · exact h
  | shutdown => exact accounted_foldl_drop e.computations rfl h

section

variable {info : ImageInfo} {config : Config} {hasRuntime withMask : Bool} {s : Sink}

theorem accounted_run (hs : Sink.create info config hasRuntime withMask = .ok s)
    (moves : List Move) :
    ((ofSink s hasRuntime).run moves).Accounted ((ofSink s hasRuntime).lost moves) := by
  induction moves using List.reverseRecOn with
  | nil =>
    obtain ⟨size, budget, -, -, -, hc⟩ := create_eq_ok hs
    exact fun _ => Cache.accounts_of_tiles_empty (congrArg Cache.tiles hc)
  | append_singleton moves move ih =>
    rw [run_concat, Engine.lost, collect_concat]
    exact ih.step (sound_run hs moves).1 move

/-- The runtime ends with a move of its own. -/
theorem hasRuntime_step (h : move.Spares) : (e.step move).hasRuntime = e.hasRuntime := by
  cases move with
  | openPull rect out hr =>
    cases ho : e.openPull rect out with
    | error error => rw [step_openPull_of_error hr ho]
    | ok dn =>
      obtain ⟨out', -, hd⟩ := openPull_eq_ok ho
      rw [step_openPull_of_ok hr ho, hd]
  | advance id amid =>
    show (e.advance id amid).1.hasRuntime = e.hasRuntime
    rw [Engine.advance]
    cases e.pulls.lookup id with
    | none => rfl
    | some pull =>
      dsimp only
      split
      · rfl
      · obtain ⟨computations, nextId, heq, -⟩ :=
          carryOn_eq (e.dropPull id) id (e.clientOf id) (e.sink.serve pull amid)
        rw [heq]
        rfl
  | finish id source =>
    cases hf : e.computations.lookup id with
    | none => rw [step_finish_of_none source hf]
    | some c =>
      rw [step_finish_of_some source hf, Engine.finish, hf]
      dsimp only
      split
      · rfl
      · rw [wake_eq]
        split <;> rfl
  | dropPull _ => rfl
  | begin _ => rfl
  | invalidate => rfl
  | detach => rfl
  | drop _ => cases h
  | shutdown => cases h

theorem hasRuntime_run {moves : List Move} (h : ∀ move ∈ moves, move.Spares) :
    (e.run moves).hasRuntime = e.hasRuntime := by
  induction moves generalizing e with
  | nil => rfl
  | cons move moves ih =>
    exact (ih fun other ho => h other (List.mem_cons_of_mem _ ho)).trans
      (hasRuntime_step (h move List.mem_cons_self))

/-- There is always somebody to run a job that nobody waits for. -/
theorem clientOf_run (hs : Sink.create info config hasRuntime withMask = .ok s)
    {moves : List Move} (hm : ∀ move ∈ moves, move.Spares) (id : Nat) :
    ¬ (((ofSink s hasRuntime).run moves).clientOf id = .nobody ∧
      !((ofSink s hasRuntime).run moves).hasRuntime) := by
  obtain ⟨size, budget, -, hconfig, -, -⟩ := create_eq_ok hs
  have hmode : ((ofSink s hasRuntime).run moves).sink.config = config :=
    (sound_run hs moves).2.config.trans hconfig
  have hruntime : ((ofSink s hasRuntime).run moves).hasRuntime = hasRuntime := hasRuntime_run hm
  rw [clientOf, hmode, hruntime]
  cases hc : config.mode with
  | synchronous => exact fun hn => nomatch hn.1
  | background =>
    rw [hasRuntime_of_create hs hc]
    exact fun hn => nomatch hn.2

/-- No job is lost as long as no computation is dropped. -/
theorem lost_eq_nil (hs : Sink.create info config hasRuntime withMask = .ok s)
    {moves : List Move} (hm : ∀ move ∈ moves, move.Spares) :
    (ofSink s hasRuntime).lost moves = [] := by
  induction moves using List.reverseRecOn with
  | nil => rfl
  | append_singleton moves move ih =>
    have hbefore := fun other ho => hm other (List.mem_append_left _ ho)
    have hmove := hm move (List.mem_append_right _ List.mem_cons_self)
    rw [lost, collect_concat]
    refine List.append_eq_nil_iff.2 ⟨ih hbefore, ?_⟩
    cases move with
    | advance id amid =>
      rw [lostBy]
      split
      · rfl
      · exact if_neg (clientOf_run hs hbefore id)
    | openPull _ _ _ => rfl
    | dropPull _ => rfl
    | begin _ => rfl
    | finish _ _ => rfl
    | invalidate => rfl
    | detach => rfl
    | drop _ => cases hmove
    | shutdown => cases hmove

/-- A computation that has begun gives its buffer back when it is dropped. -/
theorem blank_of_drop (hs : e.Sound) (ho : e.sink.cache.isOpen = true) {c : Computation}
    (hf : e.computations.lookup id = some c) (hb : c.beganAt? ≠ none) :
    ∃ t, (e.drop id).sink.cache.tiles[c.job.tile]? = some t ∧ t.state = .blank ∧
      t.area = c.job.area ∧ t.region? = some c.job.region := by
  obtain ⟨beganAt, hb⟩ := Option.ne_none_iff_exists'.1 hb
  obtain ⟨t, ht, -, ha⟩ := hs.exists_tile ho hf
  refine ⟨t.checkin c.job.region false, ?_, rfl, ha, rfl⟩
  rw [Engine.drop, hf]
  simp only [hb]
  rw [wake_eq]
  show (e.sink.cache.abandon c.job.tile c.job.region).tiles[c.job.tile]? = _
  rw [Cache.abandon, ho, Cache.checkin, ht]
  exact Cache.getElem?_setTile_self (Cache.lt_size ht) _

/-- **Slots are lost in the queue only.**  In every state that a run of a new sink leads to, while
the sink is open, the tiles in computation are exactly those of the jobs that are out, and of those
that were dropped in the queue or found nobody to run them.  A computation that has begun gives its
buffer back when it is dropped.  And with no job out or lost, no request finds all tiles in use, and
each one for a cell that can have a buffer is served. -/
theorem computing_iff_owed (hs : Sink.create info config hasRuntime withMask = .ok s)
    (moves : List Move) (ho : ((ofSink s hasRuntime).run moves).sink.cache.isOpen = true) :
    let e := (ofSink s hasRuntime).run moves
    let owed := e.jobs ++ (ofSink s hasRuntime).lost moves
    (owed.map (·.tile)).Nodup ∧
      (∀ id : Nat, (∃ t, e.sink.cache.tiles[id]? = some t ∧ t.state = .computing) ↔
        id ∈ owed.map (·.tile)) ∧
      (∀ (n : Nat) (c : Computation), e.computations.lookup n = some c → c.beganAt? ≠ none →
        ∃ t, (e.step (.drop n)).sink.cache.tiles[c.job.tile]? = some t ∧ t.state = .blank ∧
          t.area = c.job.area ∧ t.region? = some c.job.region) ∧
      (owed = [] → ∀ (generation : Nat) (cell : Rect), e.sink.size.IsCell cell →
        (e.sink.cache.acquire generation cell).1.counters.exhausted =
            e.sink.cache.counters.exhausted ∧
          (KeepImages moves → Allocatable info cell = true →
            (e.sink.cache.acquire generation cell).2 ≠ .unavailable)) := by
  intro e owed
  have hsound : e.Sound := (sound_run hs moves).1
  have haccounts : e.sink.cache.Accounts owed := accounted_run hs moves ho
  refine ⟨haccounts.apart, fun id => haccounts.mem_iff, fun n c hf hb =>
    blank_of_drop hsound ho hf hb, fun hnone generation cell hcell => ?_⟩
  have hidle : e.sink.cache.IsIdle := Cache.isIdle_iff_accounts.2 (hnone ▸ haccounts)
  exact ⟨Cache.exhausted_acquire_of_isIdle hsound.cache hidle generation cell, fun hk hok =>
    Cache.acquire_ne_unavailable hsound.cache ho hidle (info_run hs moves) (suited_run hs hk).tiles
      hcell hok generation⟩

/-- A cell is wanted in the background, and the runtime ends before anybody began to compute it. -/
theorem computing_iff_owed_narrow :
    ∃ s, Sink.create ⟨2, 1, 1, .uchar⟩
        { Config.ofTileSize 1 1 with maxTiles := 1, mode := .background } true false = .ok s ∧
      let e := (ofSink s true).run
        [.openPull ⟨0, 0, 1, 1⟩ (.empty ⟨2, 1, 1, .uchar⟩) ⟨_, rfl, rfl⟩, .advance 0 0, .shutdown]
      ∃ t, e.sink.cache.tiles[0]? = some t ∧ t.state = .computing := by
  refine ⟨_, rfl, ?_⟩
  exact ((@computing_iff_owed ⟨2, 1, 1, .uchar⟩
    { Config.ofTileSize 1 1 with maxTiles := 1, mode := .background } true false _ rfl
    [.openPull ⟨0, 0, 1, 1⟩ (.empty ⟨2, 1, 1, .uchar⟩) ⟨_, rfl, rfl⟩, .advance 0 0, .shutdown]
    rfl).2.1 0).2 (List.mem_singleton.2 rfl)

/-- After that nothing is under way any more, the sink is open, and yet there is no tile for
another cell, though it can have a buffer. -/
theorem slot_lost_in_queue :
    ∃ s, Sink.create ⟨2, 1, 1, .uchar⟩
        { Config.ofTileSize 1 1 with maxTiles := 1, mode := .background } true false = .ok s ∧
      let e := (ofSink s true).run
        [.openPull ⟨0, 0, 1, 1⟩ (.empty ⟨2, 1, 1, .uchar⟩) ⟨_, rfl, rfl⟩, .advance 0 0, .shutdown]
      e.sink.cache.isOpen = true ∧ e.jobs.length = 0 ∧
        e.sink.tiles.map (·.state) = ["Computing"] ∧
        Allocatable ⟨2, 1, 1, .uchar⟩ ⟨1, 0, 1, 1⟩ = true ∧
        (e.sink.cache.acquire 0 ⟨1, 0, 1, 1⟩).1.counters.exhausted = 1 :=
  ⟨_, rfl, rfl, rfl, rfl, rfl, rfl⟩

end

end Engine

end TileCache
