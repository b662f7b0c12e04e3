import TileCache.Proofs.Sink.Blanks
import Mathlib.Algebra.GroupWithZero.Nat

/-!
# Zeros are counted

In a sink that shows the test pattern, a cell of a region that was delivered shows the pattern or is
zero throughout (`answered_of_delivered`).  The count of cells that were answered with zeros is the
number of the latter.

`Tally` is the invariant behind this: the count is that of the blank cells in all regions that were
delivered, in what pulls under way have written so far, and in what pulls had written that were left
before their end.  A step of a pull keeps it, since it writes one cell and counts it just if it is
blank (`Sound.blanksWritten_serving`); all other moves count and write nothing.
-/

set_option autoImplicit false

namespace TileCache

variable {info : ImageInfo} {size : TileSize}

theorem Sink.Due.due_eq {s s' : Sink} {amid : Nat} {pull : Pull} {tile? : Option Tile}
    {cell : Rect} {cells : List Rect} {job? : Option Job}
    (due : s.Due amid pull s' tile? cell cells job?) : pull.due = cell :: cells := by
  cases due <;> rfl

namespace Engine

variable {e start : Engine} {moves : List Move} {move : Move} {id amid : Nat} {p next : Pull}
  {s' : Sink} {job? : Option Job} {out : Region} {delivered : List Region} {left : List Pull}

/-! ## Pulls are tidy -/

theorem tidy_of_serving {s : Sink} (h : p.Tidy size)
    (serving : s.Serving amid p (s', .went next, job?)) : next.Tidy size := by
  have halike := Sink.alike_of_serving serving
  refine ⟨h.laidOut.alike halike, ?_⟩
  rw [halike.valid]
  refine List.IsSuffix.trans ?_ h.due
  cases serving with
  | idle _ => exact List.suffix_rfl
  | waits _ _ => exact List.suffix_rfl
  | zeroed due _ =>
    rw [due.due_eq]
    exact List.suffix_cons _ _
  | copied due _ _ _ =>
    rw [due.due_eq]
    exact List.suffix_cons _ _

theorem tidy_run {config : Config} {hasRuntime withMask : Bool} {s : Sink}
    (hs : Sink.create info config hasRuntime withMask = .ok s) (moves : List Move) :
    ∀ np ∈ ((ofSink s hasRuntime).run moves).pulls, np.2.Tidy s.size := by
  induction moves using List.reverseRecOn with
  | nil => exact fun np hnp => absurd hnp List.not_mem_nil
  | append_singleton moves move ih =>
    obtain ⟨hsound, hbase⟩ := sound_run hs moves
    have hsize : ((ofSink s hasRuntime).run moves).sink.size = s.size := hbase.size
    rw [run_concat]
    refine hsound.forall_pulls_step ih ?_ ?_ fun _ h => tidy_of_serving h
    · intro rect out out' hr hb
      rw [hsize]
      exact ⟨Region.laidOut_of_buffer hr hb _, List.suffix_rfl⟩
    · intro p painted h
      refine ⟨?_, ?_⟩
      · rw [out_wake]
        exact h.laidOut
      · rw [Pull.due_wake, out_wake]
        exact h.due

/-! ## Calls that painted the pattern -/

/-- **A call that completed has left the pattern**, whatever the length of its buffer. -/
theorem CompletedCall.shows {config : Config} {hasRuntime withMask : Bool} {s : Sink}
    (hs : Sink.create info config hasRuntime withMask = .ok s) (huses : Uses .pattern moves)
    (call : CompletedCall (ofSink s hasRuntime) moves) :
    call.left.IsFor info ∧ call.left.Shows Pattern.picture := by
  obtain ⟨before, between, after, id, job, client, source, left, rfl, queued, -, completed⟩ := call
  obtain rfl := huses id source (by simp)
  show left.IsFor info ∧ left.Shows Pattern.picture
  have hbefore : KeepFrames before := fun n source hm =>
    huses n source (List.mem_append_left _ hm) ▸ keepsFrame_pattern
  have hframes : Frames info job.area job.region := (framed_run hs hbefore).computations _ queued
  have hinside := Rect.intersect_inside_right (hframes.valid ▸ hframes.nonempty)
  rw [← hframes.valid] at hinside
  obtain ⟨hbounds, hbytes, -⟩ := keepsFrame_pattern job.region
  rw [completed] at hbounds hbytes
  refine ⟨⟨hbounds.trans hframes.isFor.1, hbytes.trans hframes.isFor.2⟩, ?_⟩
  rw [Source.pattern] at completed
  cases hpaint : Pattern.paint job.region with
  | error fault =>
    rw [hpaint] at completed
    cases (Answer.mk.inj completed).2
  | ok painted =>
    rw [hpaint] at completed
    rw [← (Answer.mk.inj completed).1]
    exact Pattern.shows_of_paint hinside.self hframes.nonempty hpaint

/-! ## A step of a pull -/

section

variable (hs : e.Sound) (htraced : e.sink.cache.All (TracedTo start moves))
  (hshows : ∀ call : CompletedCall start moves, call.left.Shows Pattern.picture)
  (hframed : e.sink.cache.All (Framed e.sink.cache.info))
  (hgrid : ∀ cell, Sink.IsDue p cell → e.sink.cache.size.IsCell cell)
  (htidy : p.Tidy e.sink.size) (hfor : p.out.IsFor e.sink.cache.info)

include hs htraced hshows hframed hgrid htidy hfor

/-- A cell that was copied shows the pattern. -/
theorem showsIn_of_copied {t : Tile} {region : Region} {cell : Rect} {cells : List Rect}
    (due : e.sink.Due amid p s' (some t) cell cells job?) (held : t.region? = some region)
    (valid : t.isValid s'.generation = true)
    (copy : p.out.copyFrom region (t.area.intersect p.out.valid) = .ok out) :
    out.ShowsIn Pattern.picture cell := by
  obtain ⟨⟨n, ht⟩, harea⟩ := due.tile_area hs.cache hgrid rfl
  have hframes := (hs.all_of_asks (durable_framed _) hframed due.asks).1 n t ht region held
  obtain ⟨call, -, hleft⟩ := (hs.all_of_asks (durable_tracedTo _ _ _) htraced due.asks).1 n t ht
    (Sink.isValid_iff.1 valid).1
  obtain rfl := Option.some.inj (held.symm.trans hleft)
  have hsize := hframes.isFor.2.trans hfor.2.symm
  intro x y hc hv
  have hin : p.out.valid.contains x y = true := by rwa [Region.eq_of_copyFrom copy] at hv
  have himage : e.sink.cache.info.bounds.contains x y = true :=
    hfor.1 ▸ htidy.laidOut.isWhole.inside.contains hin
  refine Region.showsAt_copyFrom copy hsize ((hshows call).stamped _) hin (.inl ⟨?_, ?_⟩)
  · rw [Rect.contains_intersect, harea, hc, hin]
    rfl
  · rw [hframes.valid, Rect.contains_intersect, harea, hc, himage]
    rfl

/-- **A step of a pull counts the cell that it writes if and only if it leaves it blank.** -/
theorem Sound.blanksWritten_serving (hpixel : 0 < e.sink.cache.info.bytesPerPixel)
    (serving : e.sink.Serving amid p (s', .went next, job?)) :
    s'.zeroFilled + p.blanksWritten e.sink.size =
      e.sink.zeroFilled + next.blanksWritten e.sink.size := by
  cases serving with
  | idle _ => rfl
  | waits _ _ => rfl
  | @zeroed _ s' tile? cell cells _ out due painted =>
    have hcell : ∀ {x y}, p.out.valid.contains x y = true →
        (Sink.blankArea tile? cell p.out).contains x y = cell.contains x y := fun hin =>
      Sink.contains_blankArea (fun t ht => (due.tile_area hs.cache hgrid ht).2) hin
    have hsame := Region.eq_of_paint painted
    have hblank : out.BlankIn cell := by
      intro x y hc hv
      have hin : p.out.valid.contains x y = true := by rwa [hsame] at hv
      rw [Region.pixel_paint painted hin, hcell hin, if_pos hc, hsame]
    rw [htidy.blanksWritten_write due.due_eq hsame, if_pos hblank]
    · show s'.zeroFilled + 1 + _ = _
      rw [due.zeroFilled]
      omega
    · intro x y hc hin
      rw [Region.pixel_paint painted hin, hcell hin, hc]
      exact if_neg Bool.false_ne_true
  | @copied _ _ t region cell cells _ out due held valid copy =>
    obtain ⟨-, harea⟩ := due.tile_area hs.cache hgrid rfl
    have hsame := Region.eq_of_copyFrom copy
    have hshown := showsIn_of_copied hs htraced hshows hframed hgrid htidy hfor due held valid copy
    have hlaid := (tidy_of_serving htidy (.copied due held valid copy)).laidOut
    have hlisted : cell ∈ out.valid.cells e.sink.size := by
      rw [hsame]
      exact htidy.due.mem (due.due_eq ▸ List.mem_cons_self)
    have hbytes : 0 < out.pixelSize := by
      rw [hsame]
      exact hfor.2 ▸ hpixel
    rw [htidy.blanksWritten_write due.due_eq hsame,
      if_neg (hlaid.not_blankIn hbytes hlisted hshown), due.zeroFilled]
    · rfl
    · intro x y hc hin
      rw [Region.pixel_copyFrom copy hin, Rect.contains_intersect, harea, hc]
      exact if_neg fun hn => Bool.false_ne_true hn.1

end

/-! ## The tally -/

/-- The number of blank cells in what the pulls under way have written. -/
def blanksUnderWay (e : Engine) (size : TileSize) : Nat :=
  (e.pulls.map fun np => np.2.blanksWritten size).sum

/-- The cells that were answered with zeros are the blank cells of the regions that were delivered,
of the pulls that were left, and of the pulls under way. -/
def Tally (size : TileSize) (e : Engine) (delivered : List Region) (left : List Pull) : Prop :=
  e.sink.zeroFilled = (delivered.map fun out => out.blanks size).sum +
    (left.map fun p => p.blanksWritten size).sum + e.blanksUnderWay size

theorem dropPull_of_none (hf : e.pulls.lookup id = none) : e.dropPull id = e := by
  have hnone : ∀ np ∈ e.pulls, ¬ (np.1 == id) = true := fun np hnp he => by
    have := List.lookup_eq_none_iff.1 hf np hnp
    rw [beq_iff_eq.1 he] at this
    simp at this
  rw [dropPull, List.eraseP_of_forall_not hnone]

/-- The pull that is dropped had its part in the number. -/
theorem blanksUnderWay_of_lookup (hf : e.pulls.lookup id = some p) :
    e.blanksUnderWay size = p.blanksWritten size + (e.dropPull id).blanksUnderWay size :=
  (((perm_of_lookup hf).map fun np : Nat × Pull => np.2.blanksWritten size).sum_nat).trans List.sum_cons

/-- A move that counts nothing, ends no pull and writes nothing. -/
theorem Tally.of_same {d : Engine} (h : e.Tally size delivered left)
    (hsink : d.sink.zeroFilled = e.sink.zeroFilled)
    (hpulls : d.blanksUnderWay size = e.blanksUnderWay size) : d.Tally size delivered left := by
  rw [Tally, hsink, hpulls]
  exact h

theorem Tally.openPull (h : e.Tally size delivered left) (hsize : e.sink.size = size) {rect : Rect}
    (isRegion : ∃ info, out.IsFor info) :
    (e.step (.openPull rect out isRegion)).Tally size delivered left := by
  cases hb : e.openPull rect out with
  | error error => rwa [step_openPull_of_error isRegion hb]
  | ok dn =>
    obtain ⟨out', -, hd⟩ := openPull_eq_ok hb
    rw [step_openPull_of_ok isRegion hb, hd]
    refine h.of_same rfl ?_
    rw [blanksUnderWay, List.map_cons, List.sum_cons, Pull.blanksWritten_of_due (hsize ▸ rfl),
      Nat.zero_add]
    rfl

theorem Tally.dropPull (h : e.Tally size delivered left) (id : Nat) :
    (e.dropPull id).Tally size delivered (left ++ e.leftBy (.dropPull id)) := by
  rw [leftBy]
  cases hf : e.pulls.lookup id with
  | none =>
    rw [dropPull_of_none hf, Option.toList_none, List.append_nil]
    exact h
  | some p =>
    rw [Tally, blanksUnderWay_of_lookup hf] at h
    rw [Tally, Option.toList_some, List.map_append, List.sum_append, List.map_singleton,
      List.sum_singleton]
    show e.sink.zeroFilled = _
    omega

/-- What a step of a pull adds to both sides. -/
theorem Tally.advance (hs : e.Sound) (htraced : e.sink.cache.All (TracedTo start moves))
    (hshows : ∀ call : CompletedCall start moves, call.left.Shows Pattern.picture)
    (hframed : e.sink.cache.All (Framed e.sink.cache.info))
    (htidy : ∀ np ∈ e.pulls, np.2.Tidy e.sink.size)
    (hfor : ∀ np ∈ e.pulls, np.2.out.IsFor e.sink.cache.info)
    (hpixel : 0 < e.sink.cache.info.bytesPerPixel)
    (h : e.Tally e.sink.size delivered left) (id amid : Nat) :
    (e.step (.advance id amid)).Tally e.sink.size
      (delivered ++ e.deliveredBy (.advance id amid)) (left ++ e.leftBy (.advance id amid)) := by
  cases hf : e.pulls.lookup id with
  | none =>
    have hadvance : e.advance id amid = (e, none, none) := by rw [Engine.advance, hf]
    show (e.advance id amid).1.Tally _ _ _
    rw [deliveredBy, leftBy, faultsBy, hadvance, hf]
    show e.Tally _ (delivered ++ []) (left ++ [])
    rwa [List.append_nil, List.append_nil]
  | some p =>
    have hmem := mem_of_lookup hf
    have hbefore : e.blanksUnderWay e.sink.size = _ := blanksUnderWay_of_lookup hf
    cases hdone : p.isDone with
    | true =>
      obtain ⟨hstep, hdelivered, hleft⟩ := delivered_of_done hf hdone amid
      rw [hstep, hdelivered, hleft, List.append_nil]
      rw [Tally, hbefore, Pull.blanksWritten_of_isDone hdone] at h
      rw [Tally, List.map_append, List.sum_append, List.map_singleton, List.sum_singleton]
      show e.sink.zeroFilled = _
      omega
    | false =>
      have hstep : e.step (.advance id amid) = _ :=
        congrArg Prod.fst (advance_of_lookup hf hdone amid)
      obtain ⟨computations, nextId, hcarry, -⟩ :=
        carryOn_eq (e.dropPull id) id (e.clientOf id) (e.sink.serve p amid)
      have serving := Sink.serving e.sink p amid
      rw [Tally, hbefore] at h
      generalize hserve : e.sink.serve p amid = r at hstep hcarry serving
      obtain ⟨s', served, job?⟩ := r
      cases served with
      | broke fault =>
        obtain ⟨-, hdelivered, hleft⟩ := left_of_broke hf hdone hserve
        have hzero : s'.zeroFilled = e.sink.zeroFilled := by
          cases serving with
          | broke due => exact due.zeroFilled
          | stopped _ => rfl
        rw [hstep, hcarry, hdelivered, hleft, List.append_nil, Tally, List.map_append,
          List.sum_append, List.map_singleton, List.sum_singleton]
        show s'.zeroFilled = _ + (e.dropPull id).blanksUnderWay _
        omega
      | went next =>
        obtain ⟨hdelivered, hleft, -⟩ := silent_of_went hf hdone hserve
        rw [collect_singleton] at hdelivered hleft
        have hboth : s'.zeroFilled + p.blanksWritten e.sink.size =
            e.sink.zeroFilled + next.blanksWritten e.sink.size :=
          hs.blanksWritten_serving htraced hshows hframed (hs.onGrid _ hmem) (htidy _ hmem)
            (hfor _ hmem) hpixel serving
        rw [hstep, hcarry, hdelivered, hleft, List.append_nil, List.append_nil, Tally,
          blanksUnderWay, List.map_cons, List.sum_cons]
        show s'.zeroFilled = _ + (next.blanksWritten e.sink.size + (e.dropPull id).blanksUnderWay _)
        omega

/-- Moves that are no steps of pulls count nothing and write nothing. -/
theorem Tally.leavesPulls (hs : e.Sound) (hm : move.LeavesPulls)
    (h : e.Tally size delivered left) : (e.step move).Tally size delivered left := by
  refine h.of_same ?_ (congrArg List.sum
    (map_pulls_step (f := fun p => p.blanksWritten size) Pull.blanksWritten_wake hm))
  have hcount := zeroFilled_step hs move
  cases move with
  | openPull _ _ _ => cases hm
  | advance _ _ => cases hm
  | dropPull _ => cases hm
  | begin _ => exact hcount
  | finish _ _ => exact hcount
  | drop _ => exact hcount
  | invalidate => exact hcount
  | detach => exact hcount
  | shutdown => exact hcount

/-! ## Runs -/

section

variable {config : Config} {hasRuntime withMask : Bool} {s : Sink}

/-- **In every run of a new sink that shows the test pattern, the cells that were answered with
zeros are those that are blank.** -/
theorem tally_run (hs : Sink.create info config hasRuntime withMask = .ok s)
    (hpixel : 0 < info.bytesPerPixel) (huses : Uses .pattern moves) (hinto : PullInto info moves) :
    ((ofSink s hasRuntime).run moves).Tally s.size
      (collect deliveredBy (ofSink s hasRuntime) moves)
      (collect leftBy (ofSink s hasRuntime) moves) := by
  induction moves using List.reverseRecOn with
  | nil =>
    obtain ⟨size, budget, -, rfl⟩ := eq_of_create hs
    rfl
  | append_singleton moves move ih =>
    have huses' := huses.of_append
    have htally := ih huses' hinto.of_append
    obtain ⟨hsound, hbase⟩ := sound_run hs moves
    have hsize : ((ofSink s hasRuntime).run moves).sink.size = s.size := hbase.size
    have hinfo := info_run hs moves
    rw [run_concat, collect_concat, collect_concat]
    have quiet : move.LeavesPulls →
        ((ofSink s hasRuntime).run moves).deliveredBy move = [] →
        ((ofSink s hasRuntime).run moves).leftBy move = [] →
        (((ofSink s hasRuntime).run moves).step move).Tally s.size
          (collect deliveredBy (ofSink s hasRuntime) moves ++
            ((ofSink s hasRuntime).run moves).deliveredBy move)
          (collect leftBy (ofSink s hasRuntime) moves ++
            ((ofSink s hasRuntime).run moves).leftBy move) := by
      intro hm hdelivered hleft
      rw [hdelivered, hleft, List.append_nil, List.append_nil]
      exact htally.leavesPulls hsound hm
    cases move with
    | advance id amid =>
      have hframed := (framed_run hs (huses'.keepFrames keepsFrame_pattern)).tiles
      have htidy := tidy_run hs moves
      have hfor := isFor_run s hasRuntime hinto.of_append
      rw [← hinfo] at hframed hfor hpixel
      rw [← hsize] at htidy htally ⊢
      exact htally.advance hsound (traced_run hs moves).tiles
        (fun call => (call.shows hs huses').2) hframed htidy hfor hpixel id amid
    | openPull rect out isRegion =>
      show (Engine.step _ _).Tally _ (_ ++ []) (_ ++ [])
      rw [List.append_nil, List.append_nil]
      exact htally.openPull hsize isRegion
    | dropPull id =>
      show (Engine.dropPull _ _).Tally _ (_ ++ []) _
      rw [List.append_nil]
      exact htally.dropPull id
    | begin _ => exact quiet trivial rfl rfl
    | finish _ _ => exact quiet trivial rfl rfl
    | drop _ => exact quiet trivial rfl rfl
    | invalidate => exact quiet trivial rfl rfl
    | detach => exact quiet trivial rfl rfl
    | shutdown => exact quiet trivial rfl rfl

/-- Only a pull that is done delivers. -/
theorem exists_pull_of_delivered (h : out ∈ e.deliveredBy move) :
    ∃ id p, (id, p) ∈ e.pulls ∧ p.isDone = true ∧ p.out = out := by
  cases move with
  | advance id amid =>
    obtain ⟨turn, hturn, hout⟩ := Option.bind_eq_some_iff.1 (Option.mem_toList.1 h)
    cases turn with
    | finished out' =>
      obtain rfl := Option.some.inj hout
      obtain ⟨p, hmem, hdone, heq⟩ := exists_pull_of_finished hturn
      exact ⟨id, p, hmem, hdone, heq⟩
    | moved => cases hout
    | waiting => cases hout
    | broke _ => cases hout
  | openPull _ _ _ => cases h
  | dropPull _ => cases h
  | begin _ => cases h
  | finish _ _ => cases h
  | drop _ => cases h
  | invalidate => cases h
  | detach => cases h
  | shutdown => cases h

/-- **A cell of a region that was delivered shows the pattern or is zero throughout.** -/
theorem answered_of_delivered (hs : Sink.create info config hasRuntime withMask = .ok s)
    (huses : Uses .pattern moves) (hinto : PullInto info moves)
    (hout : out ∈ collect deliveredBy (ofSink s hasRuntime) moves) :
    out.IsFor info ∧ out.LaidOut s.size ∧ ∀ cell, s.size.IsCell cell →
      out.ShowsIn Pattern.picture cell ∨ out.BlankIn cell := by
  induction moves using List.reverseRecOn with
  | nil => cases hout
  | append_singleton moves move ih =>
    have huses' := huses.of_append
    rw [collect_concat] at hout
    rcases List.mem_append.1 hout with hbefore | hnow
    · exact ih huses' hinto.of_append hbefore
    · obtain ⟨id, p, hmem, hdone, rfl⟩ := exists_pull_of_delivered hnow
      have hfor := isFor_run s hasRuntime hinto.of_append _ hmem
      have hpieced := pieced_run hs (huses'.keepFrames keepsFrame_pattern) _ hmem hfor
      refine ⟨hfor, (tidy_run hs moves _ hmem).laidOut, fun cell hcell => ?_⟩
      rcases (hpieced.dueOrDone cell hcell).resolve_left (not_isDue_of_isDone hdone cell) with
        hzero | ⟨call, -, hheld, hpixels⟩
      · exact .inr hzero
      · refine .inl fun x y hc hv => ?_
        obtain ⟨bytes, hbytes, hleft⟩ := hpixels x y hc hv
        have hin : call.left.valid.contains x y = true := by
          rw [hheld, Rect.contains_intersect, hc, hpieced.inside x y hv]
          rfl
        obtain ⟨hleftFor, hshows⟩ := call.shows hs huses'
        have hshown := hshows x y hin
        rw [Region.ShowsAt, hleftFor.2, ← hfor.2, hleft, Except.ok.injEq] at hshown
        rw [Region.ShowsAt, hbytes, hshown]

/-- With no pull under way nothing is blank in what such pulls have written. -/
theorem Tally.of_idle (h : e.Tally size delivered left) (hidle : e.pulls = []) :
    e.sink.zeroFilled = (delivered.map fun out => out.blanks size).sum +
      (left.map fun p => p.blanksWritten size).sum := by
  rw [Tally, blanksUnderWay, hidle] at h
  exact h

section

/-! What holds when one pull is all that goes on in between. -/

variable (hs : Sink.create info config hasRuntime withMask = .ok s)
  (hpixel : 0 < info.bytesPerPixel) {before during : List Move}
  (huses : Uses .pattern (before ++ during)) (hinto : PullInto info (before ++ during))
  (hidle : ((ofSink s hasRuntime).run before).pulls = [])
  (hidle' : ((ofSink s hasRuntime).run (before ++ during)).pulls = [])
  (hleft : collect leftBy ((ofSink s hasRuntime).run before) during = [])
  (hout : collect deliveredBy ((ofSink s hasRuntime).run before) during = [out])

include hs hpixel huses hinto hidle hidle' hleft hout

/-- **The count grows by the blank cells of the region of this pull.** -/
theorem zeroFilled_between :
    ((ofSink s hasRuntime).run (before ++ during)).sink.zeroFilled =
      ((ofSink s hasRuntime).run before).sink.zeroFilled + out.blanks s.size := by
  have hfirst := (tally_run hs hpixel huses.of_append hinto.of_append).of_idle hidle
  have hboth := (tally_run hs hpixel huses hinto).of_idle hidle'
  rw [collect_append, collect_append, hleft, hout, List.append_nil, List.map_append,
    List.sum_append, List.map_singleton, List.sum_singleton] at hboth
  omega

/-- Nothing was counted in the meantime if and only if no byte of the region is zero, and if and
only if the region shows the pattern. -/
theorem complete_iff :
    (((ofSink s hasRuntime).run (before ++ during)).sink.zeroFilled -
        ((ofSink s hasRuntime).run before).sink.zeroFilled = 0 ↔
      ∀ i < out.bytes.size, out.bytes[i]! ≠ 0) ∧
    ((∀ i < out.bytes.size, out.bytes[i]! ≠ 0) ↔ out.Shows Pattern.picture) := by
  have hdelivered : out ∈ collect deliveredBy (ofSink s hasRuntime) (before ++ during) := by
    rw [collect_append, hout]
    exact List.mem_append_right _ List.mem_cons_self
  obtain ⟨hfor, hlaid, hcells⟩ := answered_of_delivered hs huses hinto hdelivered
  have hbytes : 0 < out.pixelSize := hfor.2 ▸ hpixel
  have hpieces : ∀ cell ∈ out.valid.cells s.size,
      out.ShowsIn Pattern.picture cell ∨ out.BlankIn cell := fun cell hcell =>
    hcells cell (hlaid.isCell hcell)
  have hnonzero := hlaid.nonzero_iff hbytes hpieces
  refine ⟨?_, hnonzero⟩
  rw [hnonzero, ← hlaid.blanks_eq_zero_iff hbytes hpieces,
    zeroFilled_between hs hpixel huses hinto hidle hidle' hleft hout]
  omega

end

end

end Engine

end TileCache
