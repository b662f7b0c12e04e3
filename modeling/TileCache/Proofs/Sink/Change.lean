import TileCache.Proofs.Sink.Serve
import TileCache.Sink.Run

/-!
# Elementary changes of an engine

A move does one of a few things to an engine, or nothing at all; only the end of the runtime does
several, one after the other.  `Change` lists these elementary changes with what is known in each
case, and `step_induction` says that what every elementary change keeps is kept by every move.
Properties of runs are shown in this way, with one case for each change.

The rest of this file is on parts of changes: where a job goes that was handed out
(`takeJob_eq`), which computation is forgotten (`perm_forget`), what the cache makes of the end of
a call (`settle_eq`), and what of all that is to be seen in the sink (`SinkChange`).
-/

set_option autoImplicit false

namespace TileCache.Engine

variable {e : Engine} {move : Move} {id : Nat}

/-- `Change move e d`: while `move` is made, `e` can become `d`. -/
inductive Change (move : Move) (e : Engine) : Engine → Prop
  /-- A pull begins. -/
  | opened {rect : Rect} {out out' : Region} (isRegion : ∃ info, out.IsFor info)
      (buffered : out.buffer rect = .ok out') :
      Change move e { e with
        pulls := (e.nextId, ⟨out', out'.valid.cells e.sink.size, .nothing⟩) :: e.pulls
        nextId := e.nextId + 1 }
  /-- A pull ends, or is dropped. -/
  | left (id : Nat) : Change move e (e.dropPull id)
  /-- A pull makes a step. -/
  | served {id amid : Nat} {pull : Pull} {r : Sink × Served × Option Job}
      (isMove : move = .advance id amid) (found : e.pulls.lookup id = some pull)
      (serving : e.sink.Serving amid pull r) :
      Change move e ((e.dropPull id).carryOn id (e.clientOf id) r).1
  /-- A computation begins. -/
  | began {id : Nat} (isMove : move = .begin id) : Change move e (e.begin id)
  /-- The call of a computation ends. -/
  | finished {id beganAt : Nat} {c : Computation} {source : Source} {notified : List Rect}
      {painted : Bool} (isMove : move = .finish id source)
      (found : e.computations.lookup id = some c) (begun : c.beganAt? = some beganAt) :
      Change move e (wake { e.forget id with
        sink := (e.sink.settle c.job beganAt (source c.job.region)).1, notified }
          c.client painted)
  /-- A queued computation is dropped. -/
  | lost {id : Nat} {c : Computation} (found : e.computations.lookup id = some c)
      (queued : c.beganAt? = none) : Change move e ((e.forget id).wake c.client false)
  /-- A computation is dropped that has begun. -/
  | abandoned {id beganAt : Nat} {c : Computation} (found : e.computations.lookup id = some c)
      (begun : c.beganAt? = some beganAt) :
      Change move e (wake { e.forget id with
        sink := { e.sink with cache := e.sink.cache.abandon c.job.tile c.job.region } }
          c.client false)
  /-- The image is invalidated. -/
  | invalidated (isMove : move = .invalidate) : Change move e e.invalidate
  /-- A channel is dropped that is not the last. -/
  | detached (attached : Nat) (isMove : move = .detach) :
      Change move e { e with sink := { e.sink with attached } }
  /-- The last channel is dropped. -/
  | closed (isMove : move = .detach) : Change move e { e with
      sink := { e.sink with attached := 0, cache := e.sink.cache.close } }
  /-- There is no runtime any more. -/
  | ended : Change move e { e with hasRuntime := false }

/-! ## Moves are made of elementary changes -/

theorem openPull_eq_ok {rect : Rect} {out : Region} {d : Engine} {n : Nat}
    (ho : e.openPull rect out = .ok (d, n)) :
    ∃ out', out.buffer rect = .ok out' ∧
      d = { e with
        pulls := (e.nextId, ⟨out', out'.valid.cells e.sink.size, .nothing⟩) :: e.pulls
        nextId := e.nextId + 1 } := by
  rw [Engine.openPull, Sink.openPull] at ho
  cases hb : out.buffer rect with
  | error error =>
    rw [hb] at ho
    cases ho
  | ok out' =>
    rw [hb] at ho
    exact ⟨out', rfl, (Prod.mk.inj (Except.ok.inj ho)).1.symm⟩

theorem advance_change (e : Engine) (id amid : Nat) :
    (e.advance id amid).1 = e ∨ Change (.advance id amid) e (e.advance id amid).1 := by
  rw [advance]
  cases hf : e.pulls.lookup id with
  | none => exact .inl rfl
  | some pull =>
    dsimp only
    split
    · exact .inr (.left id)
    · exact .inr (.served rfl hf (Sink.serving e.sink pull amid))

theorem finish_change {c : Computation} (hf : e.computations.lookup id = some c)
    (source : Source) : e.finish id (source c.job.region) = e ∨
      Change (.finish id source) e (e.finish id (source c.job.region)) := by
  rw [finish, hf]
  cases hb : c.beganAt? with
  | none =>
    refine .inl ?_
    simp only [hb]
  | some beganAt =>
    refine .inr ?_
    simp only [hb]
    split
    · exact .finished rfl hf hb
    · exact .finished rfl hf hb

theorem drop_change (move : Move) (e : Engine) (id : Nat) :
    e.drop id = e ∨ Change move e (e.drop id) := by
  rw [drop]
  cases hf : e.computations.lookup id with
  | none => exact .inl rfl
  | some c =>
    refine .inr ?_
    cases hb : c.beganAt? with
    | none =>
      simp only [hb]
      exact .lost hf hb
    | some beganAt =>
      simp only [hb]
      exact .abandoned hf hb

/-- **What every elementary change keeps is kept by the move.** -/
theorem step_induction {I : Engine → Prop} (hI : ∀ {d f : Engine}, Change move d f → I d → I f)
    (h : I e) : I (e.step move) := by
  have orSame : ∀ {d f : Engine}, f = d ∨ Change move d f → I d → I f := by
    rintro d f (rfl | hc) hd
    · exact hd
    · exact hI hc hd
  cases move with
  | openPull rect out hr =>
    cases ho : e.openPull rect out with
    | error error => rwa [step_openPull_of_error hr ho]
    | ok dn =>
      obtain ⟨out', hb, hd⟩ := openPull_eq_ok ho
      rw [step_openPull_of_ok hr ho, hd]
      exact hI (.opened hr hb) h
  | advance id amid => exact orSame (advance_change e id amid) h
  | dropPull id => exact hI (.left id) h
  | begin id => exact hI (.began rfl) h
  | finish id source =>
    cases hf : e.computations.lookup id with
    | none => rwa [step_finish_of_none source hf]
    | some c =>
      rw [step_finish_of_some source hf]
      exact orSame (finish_change hf source) h
  | drop id => exact orSame (drop_change _ e id) h
  | invalidate => exact hI (.invalidated rfl) h
  | detach =>
    show I e.detach
    rw [Engine.detach, Sink.detach]
    split
    · exact h
    · exact hI (.closed rfl) h
    · exact hI (.detached _ rfl) h
  | shutdown =>
    have fold : ∀ (ids : List Nat) {d : Engine}, I d → I (ids.foldl Engine.drop d) := by
      intro ids
      induction ids with
      | nil => exact fun hd => hd
      | cons id ids ih => exact fun {d} hd => ih (orSame (drop_change _ d id) hd)
    exact hI .ended (fold _ h)

/-! ## Steps of pulls -/

theorem mem_of_lookup {α : Type} {n : Nat} {a : α} {l : List (Nat × α)}
    (h : l.lookup n = some a) : (n, a) ∈ l := by
  obtain ⟨l₁, l₂, rfl, -⟩ := List.lookup_eq_some_iff.1 h
  exact List.mem_append_right _ List.mem_cons_self

/-- What is found under a number is what is taken out by it. -/
theorem exists_split_of_lookup {α : Type} {n : Nat} {a : α} {l : List (Nat × α)}
    (h : l.lookup n = some a) :
    ∃ l₁ l₂, l = l₁ ++ (n, a) :: l₂ ∧ l.eraseP (·.1 == n) = l₁ ++ l₂ := by
  obtain ⟨l₁, l₂, hl, hne⟩ := List.lookup_eq_some_iff.1 h
  have hskip : ∀ nc ∈ l₁, ¬ (nc.1 == n) = true := fun nc hnc he =>
    bne_iff_ne.1 (hne nc hnc) (beq_iff_eq.1 he).symm
  refine ⟨l₁, l₂, hl, ?_⟩
  rw [hl, List.eraseP_append_right _ hskip, List.eraseP_cons_of_pos (by simp)]

/-- What is found is one thing, and what is left are the others. -/
theorem perm_of_lookup {α : Type} {n : Nat} {a : α} {l : List (Nat × α)}
    (h : l.lookup n = some a) : l.Perm ((n, a) :: l.eraseP (·.1 == n)) := by
  obtain ⟨l₁, l₂, hl, herase⟩ := exists_split_of_lookup h
  rw [herase, hl]
  exact List.perm_middle

/-- A job that is handed out is put among the others, or is lost. -/
theorem takeJob_eq (e : Engine) (client : Client) (job? : Option Job) :
    (e.takeJob client job?).1 = e ∨ ∃ job, job? = some job ∧
      (e.takeJob client job?).1 = { e with
        computations := (e.nextId, ⟨job, none, client⟩) :: e.computations
        nextId := e.nextId + 1 } := by
  cases job? with
  | none => exact .inl rfl
  | some job =>
    rw [takeJob, enqueue]
    split
    · exact .inl rfl
    · exact .inr ⟨job, rfl, rfl⟩

/-- After a step of a pull the sink is the one that the step left, there is one more computation at
most, for the job handed out, and the pull stands in front of the others if it goes on. -/
theorem carryOn_eq (e : Engine) (id : Nat) (client : Client) (r : Sink × Served × Option Job) :
    ∃ computations nextId, (e.carryOn id client r).1 = { e with
        sink := r.1, computations, nextId
        pulls := match r.2.1 with
          | .went pull => (id, pull) :: e.pulls
          | .broke _ => e.pulls } ∧
      (computations = e.computations ∨ ∃ job, r.2.2 = some job ∧
        computations = (e.nextId, ⟨job, none, client⟩) :: e.computations) := by
  obtain ⟨s, served, job?⟩ := r
  rcases takeJob_eq { e with sink := s } client job? with h | ⟨job, hj, h⟩
  · refine ⟨e.computations, e.nextId, ?_, .inl rfl⟩
    cases served with
    | broke fault => exact h
    | went pull => exact congrArg (fun d : Engine => { d with pulls := (id, pull) :: d.pulls }) h
  · refine ⟨_, e.nextId + 1, ?_, .inr ⟨job, hj, rfl⟩⟩
    cases served with
    | broke fault => exact h
    | went pull => exact congrArg (fun d : Engine => { d with pulls := (id, pull) :: d.pulls }) h

theorem sink_carryOn (e : Engine) (id : Nat) (client : Client) (r : Sink × Served × Option Job) :
    (e.carryOn id client r).1.sink = r.1 := by
  obtain ⟨computations, nextId, h, -⟩ := carryOn_eq e id client r
  rw [h]

theorem computations_carryOn (e : Engine) (id : Nat) (client : Client)
    (r : Sink × Served × Option Job) :
    (e.carryOn id client r).1.computations = e.computations ∨
      ∃ job, r.2.2 = some job ∧ (e.carryOn id client r).1.computations =
        (e.nextId, ⟨job, none, client⟩) :: e.computations := by
  obtain ⟨computations, nextId, h, hc⟩ := carryOn_eq e id client r
  rw [h]
  exact hc

/-- The pulls after a step are those that were there, and the one that made the step. -/
theorem mem_pulls_carryOn {e : Engine} {id : Nat} {client : Client}
    {r : Sink × Served × Option Job} {np : Nat × Pull}
    (hm : np ∈ (e.carryOn id client r).1.pulls) :
    np ∈ e.pulls ∨ r.2.1 = .went np.2 := by
  obtain ⟨computations, nextId, h, -⟩ := carryOn_eq e id client r
  rw [h] at hm
  obtain ⟨s, served, job?⟩ := r
  cases served with
  | broke fault => exact .inl hm
  | went pull =>
    rcases List.mem_cons.1 hm with rfl | hm
    · exact .inr rfl
    · exact .inl hm

theorem mem_pulls_dropPull {np : Nat × Pull} (h : np ∈ (e.dropPull id).pulls) : np ∈ e.pulls :=
  List.mem_of_mem_eraseP h

/-! ## Ends of computations -/

theorem wake_eq (e : Engine) (client : Client) (painted : Bool) :
    e.wake client painted = { e with pulls := (e.wake client painted).pulls } := by
  cases client <;> rfl

theorem mem_pulls_wake {client : Client} {painted : Bool} {np : Nat × Pull}
    (h : np ∈ (e.wake client painted).pulls) :
    ∃ mp ∈ e.pulls, np.2 = mp.2 ∨ np.2 = mp.2.wake painted := by
  cases client with
  | nobody => exact ⟨np, h, .inl rfl⟩
  | pull id =>
    obtain ⟨mp, hmp, rfl⟩ := List.mem_map.1 h
    refine ⟨mp, hmp, ?_⟩
    dsimp only
    split
    · exact .inr rfl
    · exact .inl rfl

/-- The jobs that are out, queued or begun. -/
def jobs (e : Engine) : List Job := e.computations.map fun nc => nc.2.job

theorem jobs_begin (e : Engine) (id : Nat) : (e.begin id).jobs = e.jobs := by
  rw [jobs, begin, List.map_map, jobs]
  refine List.map_congr_left fun nc _ => ?_
  dsimp only [Function.comp]
  split <;> rfl

theorem mem_computations_forget {nc : Nat × Computation} (h : nc ∈ (e.forget id).computations) :
    nc ∈ e.computations :=
  List.mem_of_mem_eraseP h

theorem perm_forget {c : Computation} (hf : e.computations.lookup id = some c) :
    e.jobs.Perm (c.job :: (e.forget id).jobs) :=
  (perm_of_lookup hf).map _

theorem computations_finish {c : Computation} {beganAt : Nat}
    (hf : e.computations.lookup id = some c) (hb : c.beganAt? = some beganAt) (answer : Answer) :
    (e.finish id answer).computations = (e.forget id).computations := by
  rw [finish, hf]
  simp only [hb]
  rw [wake_eq]
  split <;> rfl

theorem computations_drop {c : Computation} (hf : e.computations.lookup id = some c) :
    (e.drop id).computations = (e.forget id).computations := by
  rw [drop, hf]
  dsimp only
  rw [wake_eq]
  cases c.beganAt? <;> rfl

/-- A computation that has not begun does not end. -/
theorem step_finish_of_queued {c : Computation} (source : Source)
    (hf : e.computations.lookup id = some c) (hb : c.beganAt? = none) :
    e.step (.finish id source) = e := by
  rw [step_finish_of_some source hf, finish, hf]
  simp only [hb]

/-- What becomes of the cache when a call of a source has ended. -/
theorem settle_eq (s : Sink) (job : Job) (beganAt : Nat) (answer : Answer) :
    (∃ succeeded : Bool, (answer.ending = .completed ↔ succeeded = true) ∧
        (s.settle job beganAt answer).1 =
          { s with cache := s.cache.complete job.tile (answer.stamped beganAt) succeeded }) ∨
      (answer.ending = .broken ∧ (s.settle job beganAt answer).1 =
        { s with cache := s.cache.abandon job.tile (answer.stamped beganAt) }) := by
  rw [Sink.settle]
  cases answer.ending with
  | completed => exact .inl ⟨true, by simp, rfl⟩
  | failed error => exact .inl ⟨false, by simp, rfl⟩
  | broken => exact .inr ⟨rfl, rfl⟩

/-! ## What becomes of the sink -/

/-- What an elementary change makes of the sink.  Only a step of a pull, the return of a buffer and
the end of the sink touch the cache. -/
inductive SinkChange (move : Move) (e : Engine) : Sink → Prop
  | same : SinkChange move e e.sink
  | served {id amid : Nat} {pull : Pull} {r : Sink × Served × Option Job}
      (isMove : move = .advance id amid) (found : e.pulls.lookup id = some pull)
      (serving : e.sink.Serving amid pull r) : SinkChange move e r.1
  | completed {id : Nat} {c : Computation} (found : e.computations.lookup id = some c)
      (region : Region) (succeeded : Bool) : SinkChange move e
        { e.sink with cache := e.sink.cache.complete c.job.tile region succeeded }
  | abandoned {id : Nat} {c : Computation} (found : e.computations.lookup id = some c)
      (region : Region) : SinkChange move e
        { e.sink with cache := e.sink.cache.abandon c.job.tile region }
  | invalidated (isMove : move = .invalidate) : SinkChange move e e.sink.invalidate
  | detached (attached : Nat) (isMove : move = .detach) :
      SinkChange move e { e.sink with attached }
  | closed (isMove : move = .detach) :
      SinkChange move e { e.sink with attached := 0, cache := e.sink.cache.close }

theorem Change.sinkChange {d : Engine} (hc : Change move e d) : SinkChange move e d.sink := by
  cases hc with
  | served isMove found serving =>
    rw [sink_carryOn]
    exact .served isMove found serving
  | @finished id beganAt c source _ _ _ found _ =>
    rw [wake_eq]
    rcases settle_eq e.sink c.job beganAt (source c.job.region) with ⟨succeeded, -, h⟩ | ⟨-, h⟩
    · rw [h]
      exact .completed found _ succeeded
    · rw [h]
      exact .abandoned found _
  | lost _ _ =>
    rw [wake_eq]
    exact .same
  | abandoned found _ =>
    rw [wake_eq]
    exact .abandoned found _
  | opened _ _ => exact .same
  | left _ => exact .same
  | began _ => exact .same
  | invalidated isMove => exact .invalidated isMove
  | detached attached isMove => exact .detached attached isMove
  | closed isMove => exact .closed isMove
  | ended => exact .same

/-- The generation never falls. -/
theorem SinkChange.generation_le {s : Sink} (hc : SinkChange move e s) :
    e.sink.generation ≤ s.generation := by
  cases hc with
  | served _ _ serving => exact serving.generation_le
  | invalidated _ => exact Nat.le_succ _
  | same => exact Nat.le_refl _
  | completed _ _ _ => exact Nat.le_refl _
  | abandoned _ _ => exact Nat.le_refl _
  | detached _ => exact Nat.le_refl _
  | closed => exact Nat.le_refl _

end TileCache.Engine
