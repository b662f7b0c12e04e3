import Mathlib.Algebra.GroupWithZero.Nat
import Mathlib.Algebra.Order.BigOperators.Group.List
import Mathlib.Algebra.Order.Group.Nat
import TileCache.Proofs.Sink.Alone

/-!
# Nothing stands still

A pull that waits can only go on when a computation ends, so it has to be shown that there is one to
wait for.  That is `Awaited`, which every move keeps: a pull begins to wait only in the step that
hands out the job of a computation for it, and wherever a computation is forgotten the pull that
waits for it is woken.

So as long as anything is under way there is a move that helps: a step of a pull that does not wait,
or the beginning or the end of a computation (`Awaited.exists_helping`).  Each such move leaves less
to be done.  A cell that was not asked for counts more than all that can come of it: a computation
that has to begin and to end, and one more step of the pull (`work`, `Helps.work_lt`).  Nor is a
pull lost on the way, unless it breaks off (`Helps.ended`).

Hence, in whatever order the moves that help are made, all pulls under way come to their end
(`completes_run`).
-/

set_option autoImplicit false

namespace TileCache

/-- What there is left to be done for a computation: it begins and ends. -/
def Computation.work (c : Computation) : Nat :=
  match c.beganAt? with
  | none => 2
  | some _ => 1

namespace Engine

variable {e d : Engine} {move : Move} {moves : List Move} {id : Nat} {source : Source}

/-! ## Pulls that wait -/

/-- For each pull that waits there is a computation that it waits for. -/
def Awaited (e : Engine) : Prop :=
  ∀ np ∈ e.pulls, np.2.isWaiting = true → ∃ nc ∈ e.computations, nc.2.client = .pull np.1

/-- A computation that is forgotten has its client woken, so nobody else's was forgotten. -/
theorem Awaited.comeBack (h : e.Awaited) {c : Computation}
    (hf : e.computations.lookup id = some c) (hp : d.pulls = e.pulls)
    (hc : d.computations = (e.forget id).computations) (painted : Bool) :
    (d.wake c.client painted).Awaited := by
  have hothers : ∀ np ∈ e.pulls, np.2.isWaiting = true → c.client ≠ .pull np.1 →
      ∃ nc ∈ d.computations, nc.2.client = .pull np.1 := by
    intro np hnp hwaits hne
    obtain ⟨nc, hnc, hclient⟩ := h np hnp hwaits
    rcases List.mem_cons.1 ((perm_of_lookup hf).mem_iff.1 hnc) with rfl | hleft
    · exact absurd hclient hne
    · exact ⟨nc, hc ▸ hleft, hclient⟩
  intro np hnp hwaits
  rw [wake_eq]
  cases hclient : c.client with
  | nobody =>
    rw [hclient] at hnp
    exact hothers np (hp ▸ hnp) hwaits (hclient ▸ nofun)
  | pull k =>
    rw [hclient] at hnp
    obtain ⟨mp, hmp, rfl⟩ := List.mem_map.1 hnp
    dsimp only at hwaits ⊢
    split at hwaits
    · rw [Pull.isWaiting_wake] at hwaits
      cases hwaits
    · rename_i hne
      rw [if_neg hne]
      refine hothers mp (hp ▸ hmp) hwaits fun hk => hne ?_
      rw [hclient] at hk
      exact (Client.pull.inj hk).symm

/-- Whatever a step hands out, the computations that there were are still there. -/
theorem mem_computations_carryOn {nc : Nat × Computation} (hnc : nc ∈ e.computations) (id : Nat)
    (client : Client) (r : Sink × Served × Option Job) :
    nc ∈ (e.carryOn id client r).1.computations := by
  rcases computations_carryOn e id client r with hc | ⟨job, -, hc⟩
  · exact hc ▸ hnc
  · exact hc ▸ List.mem_cons_of_mem _ hnc

/-- A pull that begins to wait has just handed out the job that it waits for. -/
theorem Awaited.served (h : e.Awaited) {pull : Pull} {amid : Nat}
    (hf : e.pulls.lookup id = some pull) {r : Sink × Served × Option Job}
    (serving : e.sink.Serving amid pull r) :
    ((e.dropPull id).carryOn id (e.clientOf id) r).1.Awaited := by
  intro np hnp hwaits
  have old : np ∈ e.pulls → ∃ nc ∈ ((e.dropPull id).carryOn id (e.clientOf id) r).1.computations,
      nc.2.client = .pull np.1 := fun hold => by
    obtain ⟨nc, hnc, hclient⟩ := h np hold hwaits
    exact ⟨nc, mem_computations_carryOn (e := e.dropPull id) hnc _ _ _, hclient⟩
  have other := fun hother : np ∈ (e.dropPull id).pulls => old (mem_pulls_dropPull hother)
  obtain ⟨computations, nextId, hcarry, -⟩ := carryOn_eq (e.dropPull id) id (e.clientOf id) r
  rw [hcarry] at hnp
  cases serving with
  | idle _ =>
    rcases List.mem_cons.1 hnp with rfl | hnp
    · exact old (mem_of_lookup hf)
    · exact other hnp
  | @waits out cells cell d job asked mode =>
    rcases List.mem_cons.1 hnp with rfl | hnp
    · have hclient : e.clientOf id = .pull id := by rw [clientOf, mode]
      have hstay : ¬ (e.clientOf id = .nobody ∧ (!(e.dropPull id).hasRuntime) = true) := by
        rintro ⟨hnobody, -⟩
        rw [hclient] at hnobody
        cases hnobody
      rw [carryOn_of_job _ _ _ _ _ hstay]
      exact ⟨_, List.mem_cons_self, hclient⟩
    · exact other hnp
  | zeroed | copied =>
    rcases List.mem_cons.1 hnp with rfl | hnp
    · cases hwaits
    · exact other hnp
  | broke | stopped => exact other hnp

theorem Awaited.change (h : e.Awaited) (hc : Change move e d) : d.Awaited := by
  cases hc with
  | opened _ _ =>
    intro np hnp hwaits
    rcases List.mem_cons.1 hnp with rfl | hnp
    · cases hwaits
    · exact h np hnp hwaits
  | left id => exact fun np hnp hwaits => h np (mem_pulls_dropPull hnp) hwaits
  | served _ found serving => exact h.served found serving
  | @began id _ =>
    intro np hnp hwaits
    obtain ⟨nc, hnc, hclient⟩ := h np hnp hwaits
    refine ⟨_, List.mem_map.2 ⟨nc, hnc, rfl⟩, ?_⟩
    dsimp only
    split <;> exact hclient
  | finished _ found _ | lost found _ | abandoned found _ =>
    refine h.comeBack found ?_ ?_ _ <;> rfl
  | invalidated _ => exact h
  | detached _ _ => exact h
  | closed _ => exact h
  | ended => exact h

/-- **A pull that waits has a computation to wait for**, whatever happens. -/
theorem awaited_run (sink : Sink) (hasRuntime : Bool) (moves : List Move) :
    ((ofSink sink hasRuntime).run moves).Awaited := by
  induction moves using List.reverseRecOn with
  | nil => exact fun np hnp => absurd hnp List.not_mem_nil
  | append_singleton moves move ih =>
    rw [run_concat]
    exact step_induction (fun hc hd => hd.change hc) ih

/-! ## Moves that help -/

/-- Does the move bring something that is under way nearer to its end? -/
def Helps (e : Engine) : Move → Prop
  | .advance id _ => ∃ pull, e.pulls.lookup id = some pull ∧ pull.isWaiting = false
  | .begin id => ∃ c, e.computations.lookup id = some c ∧ c.beganAt? = none
  | .finish id _ => ∃ c beganAt, e.computations.lookup id = some c ∧ c.beganAt? = some beganAt
  | .openPull _ _ _ | .dropPull _ | .drop _ | .invalidate | .detach | .shutdown => False

/-- Nothing is under way. -/
structure Quiet (e : Engine) : Prop where
  pulls : e.pulls = []
  computations : e.computations = []

/-- **As long as anything is under way there is a move that helps**, with any source for the call
that may end. -/
theorem Awaited.exists_helping (h : e.Awaited) (hunder : ¬ e.Quiet) (source : Source) :
    ∃ move, e.Helps move ∧ Uses source [move] := by
  rcases hc : e.computations with _ | ⟨⟨n, c⟩, cs⟩
  · -- then no pull waits
    rcases hp : e.pulls with _ | ⟨⟨id, pull⟩, others⟩
    · exact absurd ⟨hp, hc⟩ hunder
    · refine ⟨.advance id 0, ⟨pull, by rw [hp, List.lookup_cons_self], ?_⟩, fun _ _ hm => ?_⟩
      · rw [← Bool.not_eq_true]
        intro hwaits
        obtain ⟨nc, hnc, -⟩ := h (id, pull) (hp ▸ List.mem_cons_self) hwaits
        rw [hc] at hnc
        cases hnc
      · cases List.mem_singleton.1 hm
  · have hf : e.computations.lookup n = some c := by rw [hc, List.lookup_cons_self]
    cases hb : c.beganAt? with
    | none => exact ⟨.begin n, ⟨c, hf, hb⟩, fun _ _ hm => by cases List.mem_singleton.1 hm⟩
    | some beganAt =>
      refine ⟨.finish n source, ⟨c, beganAt, hf, hb⟩, fun _ _ hm => ?_⟩
      exact (Move.finish.inj (List.mem_singleton.1 hm)).2

/-- Moves that help open no pull. -/
theorem pullInto_of_helps {info : ImageInfo} (h : Throughout Helps e moves) :
    PullInto info moves := by
  induction moves generalizing e with
  | nil => exact fun _ _ _ hm => absurd hm List.not_mem_nil
  | cons move moves ih =>
    intro rect out isRegion hm
    rcases List.mem_cons.1 hm with rfl | hm
    · exact h.1.elim
    · exact ih h.2 rect out isRegion hm

/-! ## How much there is to be done -/

/-- What there is left to be done for pulls.  A step counts more than the computation that it may
start, and there is one more step, in which the pull is delivered. -/
def pullWork (pulls : List (Nat × Pull)) : Nat := (pulls.map fun np => 3 * np.2.cost + 1).sum

/-- What there is left to be done for computations. -/
def computationWork (computations : List (Nat × Computation)) : Nat :=
  (computations.map fun nc => nc.2.work).sum

def work (e : Engine) : Nat := pullWork e.pulls + computationWork e.computations

/-- A pull that is taken out takes its work along. -/
theorem pullWork_eq {pull : Pull} {pulls : List (Nat × Pull)} (hf : pulls.lookup id = some pull) :
    pullWork pulls = 3 * pull.cost + 1 + pullWork (pulls.eraseP (·.1 == id)) :=
  (((perm_of_lookup hf).map fun np : Nat × Pull => 3 * np.2.cost + 1).sum_nat).trans List.sum_cons

theorem computationWork_eq {c : Computation} (hf : e.computations.lookup id = some c) :
    computationWork e.computations = c.work + computationWork (e.forget id).computations :=
  (((perm_of_lookup hf).map fun nc : Nat × Computation => nc.2.work).sum_nat).trans List.sum_cons

/-- The work of a step: the pull is nearer to its end, if it is still under way. -/
theorem cost_of_serving {pull : Pull} {amid : Nat} {r : Sink × Served × Option Job}
    (hawake : pull.isWaiting = false) (hdone : pull.isDone = false)
    (serving : e.sink.Serving amid pull r) :
    0 < pull.cost ∧ ∀ next, r.2.1 = .went next → next.cost < pull.cost := by
  have due : ∀ {s' : Sink} {tile? : Option Tile} {cell : Rect} {cells : List Rect}
      {job? : Option Job}, e.sink.Due amid pull s' tile? cell cells job? →
      0 < pull.cost ∧ ∀ out, (Pull.mk out cells .nothing).cost < pull.cost := fun due =>
    ⟨Nat.lt_of_le_of_lt (Nat.zero_le _) (cost_of_due due), fun _ => cost_of_due due⟩
  cases serving with
  | idle rests => simp [hawake, hdone] at rests
  | waits _ _ =>
    simp only [Pull.cost, List.length_cons, Served.went.injEq, forall_eq']
    omega
  | zeroed hdue _ => exact ⟨(due hdue).1, fun _ hn => Served.went.inj hn ▸ (due hdue).2 _⟩
  | copied hdue _ _ _ => exact ⟨(due hdue).1, fun _ hn => Served.went.inj hn ▸ (due hdue).2 _⟩
  | broke hdue => exact ⟨(due hdue).1, fun _ hn => by cases hn⟩
  | stopped _ =>
    simp only [Pull.cost, List.length_cons]
    exact ⟨by omega, fun _ hn => by cases hn⟩

theorem work_advance {pull : Pull} (hf : e.pulls.lookup id = some pull)
    (hawake : pull.isWaiting = false) (amid : Nat) : (e.advance id amid).1.work < e.work := by
  have hbefore : e.work = 3 * pull.cost + 1 + pullWork (e.pulls.eraseP (·.1 == id)) +
      computationWork e.computations := congrArg (· + _) (pullWork_eq hf)
  rw [hbefore]
  cases hdone : pull.isDone with
  | true =>
    have hstep : (e.advance id amid).1 = e.dropPull id := (delivered_of_done hf hdone amid).1
    rw [hstep]
    show pullWork (e.pulls.eraseP (·.1 == id)) + computationWork e.computations < _
    omega
  | false =>
    have serving := Sink.serving e.sink pull amid
    rw [advance_of_lookup hf hdone]
    generalize e.sink.serve pull amid = r at serving
    obtain ⟨hcost, hnext⟩ := cost_of_serving hawake hdone serving
    obtain ⟨computations, nextId, hcarry, hc⟩ := carryOn_eq (e.dropPull id) id (e.clientOf id) r
    have hstarted : computationWork computations ≤ computationWork e.computations + 2 := by
      rcases hc with rfl | ⟨job, -, rfl⟩
      · exact Nat.le_add_right _ _
      · rw [computationWork, List.map_cons, List.sum_cons, Nat.add_comm]
        exact Nat.le_refl _
    rw [hcarry]
    obtain ⟨s, served, job?⟩ := r
    cases served with
    | broke fault =>
      show pullWork (e.pulls.eraseP (·.1 == id)) + computationWork computations < _
      omega
    | went next =>
      have hless := hnext next rfl
      show 3 * next.cost + 1 + pullWork (e.pulls.eraseP (·.1 == id)) +
        computationWork computations < _
      omega

theorem work_begin {c : Computation} (hf : e.computations.lookup id = some c)
    (hb : c.beganAt? = none) : (e.begin id).work < e.work := by
  refine Nat.add_lt_add_left ?_ _
  rw [begin, computationWork, List.map_map]
  refine List.sum_lt_sum _ _ (fun nc _ => ?_) ⟨(id, c), mem_of_lookup hf, ?_⟩
  · dsimp only [Function.comp]
    split
    · rename_i hnone
      rw [Computation.work, Computation.work, hnone.2]
      exact Nat.le_succ 1
    · exact Nat.le_refl _
  · dsimp only [Function.comp]
    rw [if_pos ⟨rfl, hb⟩, Computation.work, Computation.work, hb]
    exact Nat.one_lt_two

theorem work_finish {c : Computation} {beganAt : Nat} (hf : e.computations.lookup id = some c)
    (hb : c.beganAt? = some beganAt) (source : Source) :
    (e.step (.finish id source)).work < e.work := by
  have hpulls : pullWork (e.step (.finish id source)).pulls = pullWork e.pulls :=
    congrArg List.sum (map_pulls_step (f := fun p => 3 * p.cost + 1)
      (fun p painted => by rw [Pull.cost_wake]) trivial)
  have hone : c.work = 1 := by rw [Computation.work, hb]
  rw [work, work, hpulls, computationWork_eq hf, step_finish_of_some source hf,
    computations_finish hf hb, hone]
  omega

/-- **A move that helps leaves less to be done.** -/
theorem Helps.work_lt (h : e.Helps move) : (e.step move).work < e.work := by
  cases move with
  | advance id amid =>
    obtain ⟨pull, hf, hawake⟩ := h
    exact work_advance hf hawake amid
  | begin id =>
    obtain ⟨c, hf, hb⟩ := h
    exact work_begin hf hb
  | finish id source =>
    obtain ⟨c, beganAt, hf, hb⟩ := h
    exact work_finish hf hb source
  | openPull _ _ _ | dropPull _ | drop _ | invalidate | detach | shutdown => exact h.elim

/-- So there can only be so many of them. -/
theorem length_add_work_le (h : Throughout Helps e moves) :
    moves.length + (e.run moves).work ≤ e.work := by
  induction moves generalizing e with
  | nil => exact Nat.le_of_eq (Nat.zero_add _)
  | cons move moves ih =>
    have hfirst := h.1.work_lt
    have hothers := ih h.2
    rw [List.length_cons]
    show moves.length + 1 + ((e.step move).run moves).work ≤ _
    omega

/-! ## Pulls that come to their end -/

/-- A pull that is taken out is one less. -/
theorem length_dropPull {pull : Pull} (hf : e.pulls.lookup id = some pull) :
    (e.dropPull id).pulls.length + 1 = e.pulls.length :=
  (perm_of_lookup hf).length_eq.symm

theorem ended_advance {pull : Pull} (hf : e.pulls.lookup id = some pull) (amid : Nat) :
    (e.deliveredBy (.advance id amid)).length + (e.faultsBy (.advance id amid)).length +
      (e.advance id amid).1.pulls.length = e.pulls.length := by
  have hlength := length_dropPull hf
  rw [deliveredBy, faultsBy]
  cases hdone : pull.isDone with
  | true =>
    rw [advance, hf]
    dsimp only
    rw [if_pos hdone, ← hlength, Nat.add_comm]
    rfl
  | false =>
    rw [advance_of_lookup hf hdone]
    obtain ⟨s, served, job?⟩ := e.sink.serve pull amid
    obtain ⟨computations, nextId, hcarry, -⟩ :=
      carryOn_eq (e.dropPull id) id (e.clientOf id) (s, served, job?)
    rw [hcarry, ← hlength]
    cases served with
    | broke fault => exact Nat.add_comm _ _
    | went next =>
      rw [carryOn]
      dsimp only
      split <;> exact Nat.zero_add _

/-- **A move that helps loses no pull**: one that is no longer under way is delivered, or has broken
off. -/
theorem Helps.ended (h : e.Helps move) :
    (e.deliveredBy move).length + (e.faultsBy move).length + (e.step move).pulls.length =
      e.pulls.length := by
  cases move with
  | advance id amid =>
    obtain ⟨pull, hf, -⟩ := h
    exact ended_advance hf amid
  | begin id => exact Nat.zero_add _
  | finish id source =>
    have hsame : ((e.step (.finish id source)).pulls.map fun _ => ()) = e.pulls.map fun _ => () :=
      map_pulls_step (f := fun _ => ()) (fun _ _ => rfl) trivial
    have hlength := congrArg List.length hsame
    rw [List.length_map, List.length_map] at hlength
    rw [hlength]
    exact Nat.zero_add _
  | openPull _ _ _ | dropPull _ | drop _ | invalidate | detach | shutdown => exact h.elim

theorem ended_run (h : Throughout Helps e moves) :
    (collect deliveredBy e moves).length + (collect faultsBy e moves).length +
      (e.run moves).pulls.length = e.pulls.length := by
  induction moves generalizing e with
  | nil => exact Nat.zero_add _
  | cons move moves ih =>
    have hfirst := h.1.ended
    have hothers := ih h.2
    show ((e.deliveredBy move) ++ collect deliveredBy (e.step move) moves).length +
      ((e.faultsBy move) ++ collect faultsBy (e.step move) moves).length +
        ((e.step move).run moves).pulls.length = _
    rw [List.length_append, List.length_append]
    omega

/-! ## All together -/

/-- All that is under way comes to its end, with `source` for the calls. -/
structure Completes (source : Source) (e : Engine) : Prop where
  /-- However moves are chosen that help, there are only so many. -/
  bounded : ∀ moves, Throughout Helps e moves → moves.length ≤ e.work
  /-- There is one more as long as anything is under way, whatever was done before. -/
  goesOn : ∀ moves, ¬ (e.run moves).Quiet →
    ∃ move, (e.run moves).Helps move ∧ Uses source [move]
  /-- In the end each pull that was under way was delivered, or has broken off. -/
  ended : ∀ moves, Throughout Helps e moves → (e.run moves).Quiet →
    (collect deliveredBy e moves).length + (collect faultsBy e moves).length = e.pulls.length

/-- **Nothing stands still.**  Wherever a run of a sink leads to, what is then under way comes to
its end, in whatever order the pulls and the computations are gone on with. -/
theorem completes_run (sink : Sink) (hasRuntime : Bool) (source : Source) (before : List Move) :
    Completes source ((ofSink sink hasRuntime).run before) where
  bounded moves h := Nat.le_trans (Nat.le_add_right _ _) (length_add_work_le h)
  goesOn moves hunder := by
    rw [← run_append] at hunder ⊢
    exact (awaited_run sink hasRuntime (before ++ moves)).exists_helping hunder source
  ended moves h hquiet := by
    have hended := ended_run h
    rwa [hquiet.pulls, List.length_nil, Nat.add_zero] at hended

end Engine

end TileCache
