import TileCache.Proofs.Sink.Teardown
import TileCache.Sink.Process

/-!
# The life of a sink

A sink is open as long as somebody holds one of its channels.

* `Built.Kept.release`: the last channel takes the tiles with it.
* `Process.Kept.step`: the count of the sinks in use, and what each sink knows of its channels, are
  kept right by everything that happens in a process.
* `isOver_step`: a sink is closed at the drop of its last channel only; `torn_run`: so it is closed
  once.
* `rests_run`: a sink that is over stays as it is, but for its computations, which end.

What is known of each sink is in `Lives`, and what is left of one that is over in `Remains`;
`lifecycle_run` puts all of it together.
-/

set_option autoImplicit false

namespace TileCache

/-! ## One sink of a process -/

namespace Built

open Engine

variable {b d : Built} {channel : Channel}

/-- What holds of a sink that was built, with the channels of it that were not dropped. -/
structure Kept (b : Built) : Prop where
  sound : b.engine.Sound
  numbered : b.engine.Numbered []
  distinct : b.channels.Nodup
  attached : b.engine.sink.attached = b.channels.length
  isOpen : b.channels ≠ [] → b.engine.sink.cache.isOpen = true
  isOver : b.channels = [] → b.engine.sink.Over

theorem Kept.isOpen_iff (h : b.Kept) :
    b.engine.sink.cache.isOpen = true ↔ b.channels ≠ [] := by
  refine ⟨fun ho hn => ?_, h.isOpen⟩
  rw [(h.isOver hn).isOpen] at ho
  cases ho

theorem kept_ofSink {info : ImageInfo} {config : Config} {hasRuntime withMask : Bool} {s : Sink}
    (hs : Sink.create info config hasRuntime withMask = .ok s) :
    Kept ⟨.ofSink s hasRuntime, Channel.ofSink withMask⟩ := by
  obtain ⟨size, budget, -, hnew⟩ := eq_of_create hs
  have hne : Channel.ofSink withMask ≠ [] := by cases withMask <;> exact nofun
  refine ⟨sound_ofSink hs, numbered_ofSink s hasRuntime, ?_, ?_, fun _ => ?_,
    fun hn => absurd hn hne⟩
  · show (Channel.ofSink withMask).Nodup
    cases withMask <;> decide
  · show s.attached = _
    rw [hnew]
    cases withMask <;> rfl
  · show s.cache.isOpen = true
    rw [hnew]
    rfl

theorem Kept.work (h : b.Kept) {move : Move} (hm : move ≠ .detach) :
    Kept { b with engine := b.engine.step move } := by
  obtain ⟨hattached, hopen⟩ := attached_step h.sound hm
  refine ⟨h.sound.step move, h.numbered.step_nil move, h.distinct, hattached.trans h.attached,
    fun hne => hopen.trans (h.isOpen hne), fun hn => ?_⟩
  have hcache := (step_of_over h.sound (h.isOver hn) move).1
  exact ⟨hcache ▸ (h.isOver hn).isOpen, hcache ▸ (h.isOver hn).tiles, hcache ▸ (h.isOver hn).index⟩

/-- The next channel to be dropped is the last one if there is only one. -/
theorem Kept.isAtEnd_iff (h : b.Kept) (hmem : channel ∈ b.channels) :
    b.engine.isAtEnd = true ↔ b.channels = [channel] := by
  rw [isAtEnd, decide_eq_true_eq, h.attached, List.length_eq_one_iff]
  constructor
  · rintro ⟨other, ho⟩
    rw [ho, List.mem_singleton] at hmem
    rw [ho, hmem]
  · exact fun ho => ⟨channel, ho⟩

/-- After that none is held. -/
theorem Kept.isAtEnd_iff_erase (h : b.Kept) (hmem : channel ∈ b.channels) :
    b.engine.isAtEnd = true ↔ b.channels.erase channel = [] := by
  rw [h.isAtEnd_iff hmem, List.erase_eq_nil_iff]
  exact ⟨.inr, fun ho => ho.resolve_left (List.ne_nil_of_mem hmem)⟩

/-- **The last channel takes the tiles with it, and no other.** -/
theorem Kept.release (h : b.Kept) (hmem : channel ∈ b.channels) :
    Kept ⟨b.engine.detach, b.channels.erase channel⟩ := by
  have hlength := List.length_erase_of_mem hmem
  have hsound : b.engine.detach.Sound := h.sound.step .detach
  have hnumbered : b.engine.detach.Numbered [] := h.numbered.step_nil .detach
  have hopen := h.isOpen (List.ne_nil_of_mem hmem)
  by_cases hnil : b.channels.erase channel = []
  · have hone : b.engine.sink.attached = 1 := of_decide_eq_true ((h.isAtEnd_iff_erase hmem).2 hnil)
    have hdetach : b.engine.detach.sink =
        { b.engine.sink with attached := 0, cache := b.engine.sink.cache.close } := by
      show b.engine.sink.detach = _
      rw [Sink.detach, hone]
      rfl
    refine ⟨hsound, hnumbered, h.distinct.erase _, ?_, fun hne => absurd hnil hne, fun _ => ?_⟩
    · rw [hdetach, hnil]
      rfl
    · rw [hdetach]
      exact ⟨rfl, rfl, rfl⟩
  · obtain ⟨n, hn⟩ := Nat.exists_eq_add_one.2 (List.length_pos_iff.2 hnil)
    have hattached : b.engine.sink.attached = n + 1 + 1 := by
      have hpos := List.length_pos_of_mem hmem
      rw [h.attached]
      omega
    have hdetach : b.engine.detach.sink = { b.engine.sink with attached := n + 1 } := by
      show b.engine.sink.detach = _
      rw [Sink.detach, hattached]
      rfl
    refine ⟨hsound, hnumbered, h.distinct.erase _, ?_, fun _ => ?_, fun hn => absurd hn hnil⟩
    · show b.engine.detach.sink.attached = _
      rw [hdetach, hn]
    · show b.engine.detach.sink.cache.isOpen = true
      rw [hdetach]
      exact hopen

/-- A sink that is over holds the image with the computations that have not ended. -/
theorem Kept.imageReferences_eq (h : b.Kept) (hn : b.channels = []) :
    b.engine.imageReferences = b.engine.numbers.length := by
  rw [imageReferences, if_neg fun ho => h.isOpen_iff.1 ho hn, Nat.zero_add, numbers,
    List.length_map]

/-- What is left of a sink after its last channel was dropped, at some later moment `d`. -/
structure Rests (b d : Built) : Prop where
  channels : d.channels = []
  cache : d.engine.sink.cache = b.engine.sink.cache
  notified : d.engine.notified = b.engine.notified
  jobs : d.engine.jobs.Sublist b.engine.jobs

theorem Rests.refl (hn : b.channels = []) : b.Rests b := ⟨hn, rfl, rfl, List.Sublist.refl _⟩

theorem Rests.work (h : b.Rests d) (hd : d.Kept) (move : Move) :
    b.Rests { d with engine := d.engine.step move } := by
  have hover := hd.isOver h.channels
  obtain ⟨hcache, hjobs⟩ := step_of_over hd.sound hover move
  exact ⟨h.channels, hcache.trans h.cache,
    (notified_step_of_over hd.sound hover move).trans h.notified, hjobs.trans h.jobs⟩

end Built

/-! ## All of them -/

namespace Process

variable {p : Process} {act : Act} {k : Nat} {b : Built}

/-- Is a sink built? -/
def Act.builds : Act → Bool
  | .build info config hasRuntime withMask =>
    (Sink.create info config hasRuntime withMask).isOk
  | .dropChannel _ _ | .work _ _ _ => false

/-- The sinks that are closed for good, by the rule that `Engine.release` counts them by. -/
def tornBy (p : Process) : Act → List Nat
  | .dropChannel sink channel =>
    match p.sinks[sink]? with
    | none => []
    | some b => if b.channels.contains channel && b.engine.isAtEnd then [sink] else []
  | .build _ _ _ _ | .work _ _ _ => []

/-- The sinks that are closed one after the other. -/
def torn (p : Process) (acts : List Act) : List Nat := collectAlong step tornBy p acts

/-- The computations of sink number `k` that something puts to an end. -/
def endedBy (k : Nat) (p : Process) : Act → List Nat
  | .work sink move _ =>
    match p.sinks[sink]? with
    | none => []
    | some b => if sink = k then b.engine.endedBy move else []
  | .build _ _ _ _ | .dropChannel _ _ => []

/-- The computations of sink number `k` that end one after the other. -/
def ended (p : Process) (k : Nat) (acts : List Act) : List Nat :=
  collectAlong step (endedBy k) p acts

theorem run_concat (acts : List Act) : p.run (acts ++ [act]) = (p.run acts).step act := by
  rw [run, List.foldl_append]
  rfl

/-- Is a channel of the sink held? -/
def inUse (b : Built) : Bool := !b.channels.isEmpty

/-- The invariant of a process. -/
structure Kept (p : Process) : Prop where
  sinks : ∀ b ∈ p.sinks, b.Kept
  live : p.live = p.sinks.countP inUse

theorem kept_start : start.Kept := ⟨fun _ hb => absurd hb List.not_mem_nil, rfl⟩

/-- Something becomes of one of the sinks. -/
theorem Kept.set (h : p.Kept) (hb : p.sinks[k]? = some b) {d : Built} (hd : d.Kept) {live : Nat}
    (hlive : p.live + (if inUse d then 1 else 0) = live + if inUse b then 1 else 0) :
    Kept { sinks := p.sinks.set k d, live } := by
  obtain ⟨hk, rfl⟩ := List.getElem?_eq_some_iff.1 hb
  refine ⟨fun other ho => ?_, ?_⟩
  · rcases List.mem_or_eq_of_mem_set ho with ho | rfl
    · exact h.sinks other ho
    · exact hd
  · show live = (p.sinks.set k d).countP inUse
    have hpos : (if inUse p.sinks[k] then 1 else 0) ≤ p.sinks.countP inUse := by
      split
      · exact List.countP_pos_iff.2 ⟨_, List.getElem_mem hk, ‹_›⟩
      · exact Nat.zero_le _
    have hcount := h.live
    rw [List.countP_set hk]
    omega

theorem inUse_iff : inUse b = true ↔ b.channels ≠ [] := by
  rw [inUse, Bool.not_eq_true', List.isEmpty_eq_false_iff]

/-- A drop of a channel, in the cases in which there is one. -/
theorem dropChannel_eq (hb : p.sinks[k]? = some b) {channel : Channel}
    (hmem : channel ∈ b.channels) : p.dropChannel k channel =
      { sinks := p.sinks.set k ⟨b.engine.detach, b.channels.erase channel⟩
        live := if b.engine.isAtEnd then p.live - 1 else p.live } := by
  rw [dropChannel, hb]
  exact if_pos (List.contains_iff_mem.2 hmem)

theorem dropChannel_eq_self {channel : Channel}
    (h : ∀ b, p.sinks[k]? = some b → channel ∉ b.channels) : p.dropChannel k channel = p := by
  rw [dropChannel]
  cases hb : p.sinks[k]? with
  | none => rfl
  | some b => exact if_neg fun hn => h b hb (List.contains_iff_mem.1 hn)

/-- **Whatever happens, the count of the sinks in use is right**, and so is what each sink knows of
its channels. -/
theorem Kept.step (h : p.Kept) (act : Act) : (p.step act).Kept := by
  cases act with
  | build info config hasRuntime withMask =>
    show (p.build info config hasRuntime withMask).Kept
    rw [build]
    cases hs : Sink.create info config hasRuntime withMask with
    | error error => exact h
    | ok s =>
      have hnew := Built.kept_ofSink hs
      refine ⟨fun b hb => ?_, ?_⟩
      · rcases List.mem_append.1 hb with hb | hb
        · exact h.sinks b hb
        · exact List.mem_singleton.1 hb ▸ hnew
      · show p.live + 1 = (p.sinks ++ [_]).countP inUse
        rw [List.countP_append, h.live]
        cases withMask <;> rfl
  | dropChannel k channel =>
    show (p.dropChannel k channel).Kept
    by_cases hheld : ∃ b, p.sinks[k]? = some b ∧ channel ∈ b.channels
    · obtain ⟨b, hb, hmem⟩ := hheld
      have hkept := h.sinks b (List.mem_of_getElem? hb)
      have huse : inUse b = true := inUse_iff.2 (List.ne_nil_of_mem hmem)
      have hlive : 0 < p.live := by
        rw [h.live]
        exact List.countP_pos_iff.2 ⟨b, List.mem_of_getElem? hb, huse⟩
      rw [dropChannel_eq hb hmem]
      refine h.set hb (hkept.release hmem) ?_
      rw [huse]
      by_cases hend : b.engine.isAtEnd = true
      · rw [inUse, (hkept.isAtEnd_iff_erase hmem).1 hend, if_pos hend]
        show p.live + 0 = p.live - 1 + 1
        omega
      · rw [inUse_iff.2 fun hnil => hend ((hkept.isAtEnd_iff_erase hmem).2 hnil), if_neg hend]
    · rw [dropChannel_eq_self fun b hb hmem => hheld ⟨b, hb, hmem⟩]
      exact h
  | work k move isWork =>
    show (p.work k move).Kept
    rw [work]
    cases hb : p.sinks[k]? with
    | none => exact h
    | some b => exact h.set hb ((h.sinks b (List.mem_of_getElem? hb)).work isWork) rfl

theorem Kept.run (h : p.Kept) (acts : List Act) : (p.run acts).Kept := by
  induction acts generalizing p with
  | nil => exact h
  | cons act acts ih => exact ih (h.step act)

/-! ## Sinks that are closed -/

/-- Were all channels of the sink dropped? -/
def IsOver (p : Process) (k : Nat) : Prop := ∃ b, p.sinks[k]? = some b ∧ b.channels = []

theorem mem_tornBy_iff (h : p.Kept) : k ∈ p.tornBy act ↔
    ∃ channel b, act = .dropChannel k channel ∧ p.sinks[k]? = some b ∧ b.channels = [channel] := by
  cases act with
  | build _ _ _ _ => exact ⟨fun hk => absurd hk List.not_mem_nil, fun ⟨_, _, ha, _⟩ => nomatch ha⟩
  | work _ _ _ => exact ⟨fun hk => absurd hk List.not_mem_nil, fun ⟨_, _, ha, _⟩ => nomatch ha⟩
  | dropChannel j channel =>
    rw [tornBy]
    constructor
    · intro hk
      cases hb : p.sinks[j]? with
      | none =>
        rw [hb] at hk
        exact absurd hk List.not_mem_nil
      | some b =>
        rw [hb] at hk
        dsimp only at hk
        split at hk
        · rename_i hend
          obtain rfl := List.mem_singleton.1 hk
          rw [Bool.and_eq_true, List.contains_iff_mem] at hend
          exact ⟨channel, b, rfl, hb,
            ((h.sinks b (List.mem_of_getElem? hb)).isAtEnd_iff hend.1).1 hend.2⟩
        · exact absurd hk List.not_mem_nil
    · rintro ⟨other, b, ha, hb, hlast⟩
      obtain ⟨rfl, rfl⟩ := Act.dropChannel.inj ha
      have hmem : channel ∈ b.channels := hlast ▸ List.mem_singleton_self channel
      have hend := ((h.sinks b (List.mem_of_getElem? hb)).isAtEnd_iff hmem).2 hlast
      rw [hb]
      dsimp only
      rw [List.contains_iff_mem.2 hmem, hend]
      exact List.mem_singleton_self j

/-- What becomes of a place in the list of sinks. -/
theorem isOver_set {j : Nat} (hb : p.sinks[j]? = some b) (d : Built) (live : Nat) :
    IsOver { sinks := p.sinks.set j d, live } k ↔
      if j = k then d.channels = [] else p.IsOver k := by
  obtain ⟨hj, -⟩ := List.getElem?_eq_some_iff.1 hb
  rw [IsOver]
  dsimp only
  rw [List.getElem?_set, if_pos hj]
  split
  · exact ⟨fun ⟨other, ho, hn⟩ => Option.some.inj ho ▸ hn, fun hn => ⟨d, rfl, hn⟩⟩
  · exact Iff.rfl

theorem isOver_build (info : ImageInfo) (config : Config) (hasRuntime withMask : Bool) :
    (p.build info config hasRuntime withMask).IsOver k ↔ p.IsOver k := by
  rw [build]
  cases Sink.create info config hasRuntime withMask with
  | error error => exact Iff.rfl
  | ok s =>
    rcases Nat.lt_or_ge k p.sinks.length with hk | hk
    · rw [IsOver, List.getElem?_append_left hk, IsOver]
    · refine ⟨fun ⟨b, hb, hn⟩ => ?_, fun ⟨b, hb, _⟩ => ?_⟩
      · rw [List.getElem?_append_right hk] at hb
        obtain rfl := List.mem_singleton.1 (List.mem_of_getElem? hb)
        cases withMask <;> cases hn
      · rw [List.getElem?_eq_none hk] at hb
        cases hb

theorem isOver_dropChannel (h : p.Kept) (j : Nat) (channel : Channel) :
    (p.dropChannel j channel).IsOver k ↔
      (j = k ∧ ∃ b, p.sinks[k]? = some b ∧ b.channels = [channel]) ∨ p.IsOver k := by
  by_cases hheld : ∃ b, p.sinks[j]? = some b ∧ channel ∈ b.channels
  · obtain ⟨b, hb, hmem⟩ := hheld
    have hkept := h.sinks b (List.mem_of_getElem? hb)
    rw [dropChannel_eq hb hmem, isOver_set hb]
    split
    · rename_i hjk
      subst hjk
      show b.channels.erase channel = [] ↔ _
      rw [← hkept.isAtEnd_iff_erase hmem, hkept.isAtEnd_iff hmem]
      refine ⟨fun hlast => .inl ⟨rfl, b, hb, hlast⟩, ?_⟩
      rintro (⟨-, b', hb', hlast⟩ | ⟨b', hb', hn⟩) <;>
        rw [hb] at hb' <;> obtain rfl := Option.some.inj hb'
      · exact hlast
      · exact absurd hn (List.ne_nil_of_mem hmem)
    · rename_i hjk
      exact ⟨.inr, fun ho => ho.resolve_left fun hlast => hjk hlast.1⟩
  · rw [dropChannel_eq_self fun b hb hmem => hheld ⟨b, hb, hmem⟩]
    refine ⟨.inr, fun ho => ho.resolve_left ?_⟩
    rintro ⟨rfl, b, hb, hlast⟩
    exact hheld ⟨b, hb, hlast ▸ List.mem_singleton_self channel⟩

theorem isOver_work (j : Nat) (move : Move) : (p.work j move).IsOver k ↔ p.IsOver k := by
  rw [work]
  cases hb : p.sinks[j]? with
  | none => exact Iff.rfl
  | some b =>
    rw [isOver_set hb]
    split
    · rename_i hjk
      subst hjk
      exact ⟨fun hn => ⟨b, hb, hn⟩, fun ⟨b', hb', hn⟩ => by
        rw [hb] at hb'
        exact Option.some.inj hb' ▸ hn⟩
    · exact Iff.rfl

/-- **A sink is closed at the drop of its last channel and at no other moment.** -/
theorem isOver_step (h : p.Kept) (act : Act) :
    (p.step act).IsOver k ↔ k ∈ p.tornBy act ∨ p.IsOver k := by
  cases act with
  | build info config hasRuntime withMask =>
    have hnone : k ∉ p.tornBy (.build info config hasRuntime withMask) := List.not_mem_nil
    exact (isOver_build info config hasRuntime withMask).trans (or_iff_right hnone).symm
  | dropChannel j channel =>
    rw [mem_tornBy_iff h]
    refine (isOver_dropChannel h j channel).trans (or_congr_left ?_)
    constructor
    · rintro ⟨rfl, b, hb, hlast⟩
      exact ⟨channel, b, rfl, hb, hlast⟩
    · rintro ⟨other, b, ha, hb, hlast⟩
      obtain ⟨rfl, rfl⟩ := Act.dropChannel.inj ha
      exact ⟨rfl, b, hb, hlast⟩
  | work j move isWork =>
    have hnone : k ∉ p.tornBy (.work j move isWork) := List.not_mem_nil
    exact (isOver_work j move).trans (or_iff_right hnone).symm

theorem nodup_tornBy (p : Process) (act : Act) : (p.tornBy act).Nodup := by
  cases act with
  | build _ _ _ _ => exact List.nodup_nil
  | work _ _ _ => exact List.nodup_nil
  | dropChannel j channel =>
    rw [tornBy]
    split
    · exact List.nodup_nil
    · split
      · exact List.nodup_singleton _
      · exact List.nodup_nil

/-- Each sink whose channels were all dropped has been closed, once. -/
theorem torn_run (acts : List Act) : (start.torn acts).Nodup ∧
    ∀ k, k ∈ start.torn acts ↔ (start.run acts).IsOver k := by
  induction acts using List.reverseRecOn with
  | nil => exact ⟨List.nodup_nil, fun k => ⟨fun hk => absurd hk List.not_mem_nil,
      fun ⟨b, hb, _⟩ => nomatch hb⟩⟩
  | append_singleton acts act ih =>
    have hkept := kept_start.run acts
    have htorn : start.torn (acts ++ [act]) = start.torn acts ++ (start.run acts).tornBy act :=
      collectAlong_concat step tornBy start acts act
    rw [htorn, run_concat]
    refine ⟨List.nodup_append.2 ⟨ih.1, nodup_tornBy _ _, ?_⟩, fun k => ?_⟩
    · rintro k hk j hj rfl
      obtain ⟨channel, b, -, hb, hlast⟩ := (mem_tornBy_iff hkept).1 hj
      obtain ⟨b', hb', hn⟩ := (ih.2 k).1 hk
      rw [hb] at hb'
      obtain rfl := Option.some.inj hb'
      rw [hlast] at hn
      cases hn
    · rw [List.mem_append, isOver_step hkept, ih.2, or_comm]

/-- A sink that is over rests, whatever happens in the process, while its computations end. -/
theorem rests_step (h : p.Kept) {d : Built} (hd : p.sinks[k]? = some d) (hrests : b.Rests d)
    (act : Act) : ∃ d', (p.step act).sinks[k]? = some d' ∧ b.Rests d' ∧
      (p.endedBy k act ++ d'.engine.numbers).Perm d.engine.numbers := by
  cases act with
  | build info config hasRuntime withMask =>
    show ∃ d', (p.build info config hasRuntime withMask).sinks[k]? = some d' ∧ _
    rw [build]
    cases Sink.create info config hasRuntime withMask with
    | error error => exact ⟨d, hd, hrests, .refl _⟩
    | ok s =>
      exact ⟨d, (List.getElem?_append_left (List.getElem?_eq_some_iff.1 hd).1).trans hd, hrests,
        .refl _⟩
  | dropChannel j channel =>
    show ∃ d', (p.dropChannel j channel).sinks[k]? = some d' ∧ _
    by_cases hheld : ∃ b, p.sinks[j]? = some b ∧ channel ∈ b.channels
    · obtain ⟨b', hb, hmem⟩ := hheld
      have hne : j ≠ k := by
        rintro rfl
        rw [hd] at hb
        obtain rfl := Option.some.inj hb
        rw [hrests.channels] at hmem
        exact absurd hmem List.not_mem_nil
      rw [dropChannel_eq hb hmem]
      exact ⟨d, (List.getElem?_set_ne hne).trans hd, hrests, .refl _⟩
    · rw [dropChannel_eq_self fun b hb hmem => hheld ⟨b, hb, hmem⟩]
      exact ⟨d, hd, hrests, .refl _⟩
  | work j move isWork =>
    show ∃ d', (p.work j move).sinks[k]? = some d' ∧ _
    rw [work, endedBy]
    cases hb : p.sinks[j]? with
    | none => exact ⟨d, hd, hrests, .refl _⟩
    | some b' =>
      dsimp only
      by_cases hjk : j = k
      · subst hjk
        rw [hd] at hb
        obtain rfl := Option.some.inj hb
        have hkept := h.sinks d (List.mem_of_getElem? hd)
        rw [if_pos rfl]
        exact ⟨_, List.getElem?_set_self (List.getElem?_eq_some_iff.1 hd).1,
          hrests.work hkept move, Engine.perm_endedBy_of_over (hkept.isOver hrests.channels) move⟩
      · rw [if_neg hjk]
        exact ⟨d, (List.getElem?_set_ne hjk).trans hd, hrests, .refl _⟩

theorem rests_run (h : p.Kept) {d : Built} (hd : p.sinks[k]? = some d) (hrests : b.Rests d)
    (acts : List Act) : ∃ d', (p.run acts).sinks[k]? = some d' ∧ b.Rests d' ∧
      (p.ended k acts ++ d'.engine.numbers).Perm d.engine.numbers := by
  induction acts generalizing p d with
  | nil => exact ⟨d, hd, hrests, .refl _⟩
  | cons act acts ih =>
    obtain ⟨between, hbetween, hrests', hfirst⟩ := rests_step h hd hrests act
    obtain ⟨d', hd', hrests'', hothers⟩ := ih (h.step act) hbetween hrests'
    refine ⟨d', hd', hrests'', ?_⟩
    show ((p.endedBy k act ++ (p.step act).ended k acts) ++ d'.engine.numbers).Perm _
    rw [List.append_assoc]
    exact (hothers.append_left _).trans hfirst

/-- One sink for each configuration that is accepted. -/
theorem length_sinks_step (p : Process) (act : Act) :
    (p.step act).sinks.length = p.sinks.length + if act.builds then 1 else 0 := by
  cases act with
  | build info config hasRuntime withMask =>
    show (p.build info config hasRuntime withMask).sinks.length = _
    rw [build, Act.builds]
    cases Sink.create info config hasRuntime withMask with
    | error error => rfl
    | ok s => exact List.length_append
  | dropChannel j channel =>
    show (p.dropChannel j channel).sinks.length = _
    rw [dropChannel]
    split
    · rfl
    · split
      · exact List.length_set
      · rfl
  | work j move isWork =>
    show (p.work j move).sinks.length = _
    rw [work]
    split
    · rfl
    · exact List.length_set

theorem length_sinks_run (acts : List Act) :
    (start.run acts).sinks.length = acts.countP Act.builds := by
  induction acts using List.reverseRecOn with
  | nil => rfl
  | append_singleton acts act ih =>
    rw [run_concat, length_sinks_step, ih, List.countP_append, List.countP_singleton]

/-! ## All together -/

/-- What is known of a sink at any moment. -/
structure Lives (b : Built) : Prop where
  /-- It is open as long as it has a channel. -/
  isOpen_iff : b.engine.sink.cache.isOpen = true ↔ b.channels ≠ []
  attached : b.engine.sink.attached = b.channels.length
  /-- No computation that ends looks for a tile that is not there, be the sink open or not. -/
  inPlace : ∀ (n : Nat) (c : Computation), b.engine.computations.lookup n = some c →
    ∀ (beganAt : Nat) (answer : Answer) (region : Region),
    b.engine.sink.settleStrict c.job beganAt answer =
        some (b.engine.sink.settle c.job beganAt answer) ∧
      b.engine.sink.cache.abandonStrict c.job.tile region =
        some (b.engine.sink.cache.abandon c.job.tile region)
  /-- The computations that end are no longer under way, and no others go with them. -/
  ended : ∀ move : Move, move.Ends →
    (b.engine.endedBy move ++ (b.engine.step move).numbers).Perm b.engine.numbers

/-- What is left of sink number `k`, which was `b` when it had no channels any more. -/
structure Remains (p : Process) (k : Nat) (b : Built) : Prop where
  /-- It has neither tiles nor an index. -/
  empty : b.engine.sink.Over
  /-- Whatever happens later, its cache stays as it is, with all its counts; it gives no notice and
  has no new jobs.  It holds the image just as often as there are computations left, of those that
  were under way. -/
  later : ∀ acts : List Act, ∃ d, (p.run acts).sinks[k]? = some d ∧ b.Rests d ∧
    (p.ended k acts ++ d.engine.numbers).Perm b.engine.numbers ∧
    d.engine.imageReferences = d.engine.numbers.length
  /-- Once these have ended, it does not hold the image any more. -/
  released : ∀ acts : List Act, (∀ n ∈ b.engine.numbers, n ∈ p.ended k acts) →
    ∃ d, (p.run acts).sinks[k]? = some d ∧ d.engine.imageReferences = 0
  /-- The end of a computation changes nothing. -/
  late : ∀ move : Move, move.Ends → (b.engine.step move).sink = b.engine.sink ∧
    (b.engine.step move).notified = b.engine.notified

theorem lives_of_kept (h : b.Kept) : Lives b := by
  refine ⟨h.isOpen_iff, h.attached, fun n c hf beganAt answer region => ?_,
    fun move hm => Engine.perm_endedBy hm⟩
  obtain ⟨hsettle, habandon⟩ := Engine.settleStrict_eq h.sound hf beganAt answer
  exact ⟨hsettle, habandon region⟩

theorem remains_of_kept (h : p.Kept) (hb : p.sinks[k]? = some b) (hn : b.channels = []) :
    p.Remains k b := by
  have hsink := h.sinks b (List.mem_of_getElem? hb)
  have hover := hsink.isOver hn
  have hlater : ∀ acts : List Act, ∃ d, (p.run acts).sinks[k]? = some d ∧ b.Rests d ∧
      (p.ended k acts ++ d.engine.numbers).Perm b.engine.numbers ∧
      d.engine.imageReferences = d.engine.numbers.length := by
    intro acts
    obtain ⟨d, hd, hrests, hperm⟩ := rests_run h hb (.refl hn) acts
    have hkept := (h.run acts).sinks d (List.mem_of_getElem? hd)
    exact ⟨d, hd, hrests, hperm, hkept.imageReferences_eq hrests.channels⟩
  refine ⟨hover, hlater, fun acts hall => ?_, fun move hm =>
    ⟨Engine.sink_step_of_over hover hm, Engine.notified_step_of_over hsink.sound hover move⟩⟩
  obtain ⟨d, hd, -, hperm, hreferences⟩ := hlater acts
  refine ⟨d, hd, hreferences.trans (List.length_eq_zero_iff.2 ?_)⟩
  -- one that were left would be among them twice, as one that ended and as one that did not
  have hdistinct : (p.ended k acts ++ d.engine.numbers).Nodup :=
    hperm.nodup_iff.2 hsink.numbered.distinct
  refine List.eq_nil_iff_forall_not_mem.2 fun n hm => ?_
  have hold := hperm.mem_iff.1 (List.mem_append_right _ hm)
  exact (List.nodup_append.1 hdistinct).2.2 n (hall n hold) n hm rfl

/-- **The life of a sink.**  Let sinks be built or refused, worked with, and their channels be
dropped, in any order.

* There is a sink for each configuration that was accepted, and those with a channel that was not
  dropped are the ones that are counted as in use.
* Each sink whose channels were all dropped has been closed, once, and no other; whatever happens
  next, it closes a sink if it drops the only channel left of that, and else closes none.
* A sink is open as long as it has a channel, and then nothing is left of it but computations that
  are still under way, which hold the image until they end. -/
theorem lifecycle_run (acts : List Act) :
    let p := start.run acts
    p.sinks.length = acts.countP Act.builds ∧
      p.live = p.sinks.countP (fun b => !b.channels.isEmpty) ∧
      (start.torn acts).Nodup ∧
      (∀ k : Nat, k ∈ start.torn acts ↔ ∃ b, p.sinks[k]? = some b ∧ b.channels = []) ∧
      (∀ (act : Act) (k : Nat), k ∈ p.tornBy act ↔ ∃ channel b, act = .dropChannel k channel ∧
        p.sinks[k]? = some b ∧ b.channels = [channel]) ∧
      ∀ (k : Nat) (b : Built), p.sinks[k]? = some b →
        Lives b ∧ (b.channels = [] → p.Remains k b) := by
  intro p
  have hkept : p.Kept := kept_start.run acts
  obtain ⟨hnodup, htorn⟩ := torn_run acts
  exact ⟨length_sinks_run acts, hkept.live, hnodup, htorn, fun act k => mem_tornBy_iff hkept,
    fun k b hb => ⟨lives_of_kept (hkept.sinks b (List.mem_of_getElem? hb)),
      remains_of_kept hkept hb⟩⟩

/-- A sink is refused and another one built.  Its channels are dropped while a computation is under
way, which ends after that. -/
theorem lifecycle_run_narrow :
    let acts : List Act :=
      [.build ⟨1, 1, 1, .uchar⟩ (Config.ofTileSize 0 1) true true,
        .build ⟨1, 1, 1, .uchar⟩ { Config.ofTileSize 1 1 with mode := .background } true true,
        .work 0 (.openPull ⟨0, 0, 1, 1⟩ (.empty ⟨1, 1, 1, .uchar⟩) ⟨_, rfl, rfl⟩) nofun,
        .work 0 (.advance 0 0) nofun, .work 0 (.begin 1) nofun, .dropChannel 0 .data,
        .dropChannel 0 .mask]
    let late : List Act := [.work 0 (.finish 1 .pattern) nofun]
    let p := start.run acts
    p.live = 0 ∧ 0 ∈ start.torn acts ∧
      ∃ b d, p.sinks[0]? = some b ∧ (p.run late).sinks[0]? = some d ∧
        b.engine.imageReferences = 1 ∧ d.engine.imageReferences = 0 ∧
        d.engine.sink.cache = b.engine.sink.cache ∧ d.engine.notified = [] := by
  intro acts late p
  obtain ⟨-, hlive, -, htorn, -, hsinks⟩ := lifecycle_run acts
  have gone : ∀ b, p.sinks[0]? = some b → b.channels = [] → b.engine.numbers = p.ended 0 late →
      b.engine.numbers.length = 1 → b.engine.notified = [] →
      ∃ b d, p.sinks[0]? = some b ∧ (p.run late).sinks[0]? = some d ∧
        b.engine.imageReferences = 1 ∧ d.engine.imageReferences = 0 ∧
        d.engine.sink.cache = b.engine.sink.cache ∧ d.engine.notified = [] := by
    intro b hb hnone hended hone hsilent
    have hremains := (hsinks 0 b hb).2 hnone
    obtain ⟨now, hnow, -, -, hheld⟩ := hremains.later []
    obtain rfl := Option.some.inj (hnow.symm.trans hb)
    obtain ⟨d, hd, hrests, -, -⟩ := hremains.later late
    obtain ⟨d', hd', hfree⟩ := hremains.released late fun n hn => hended ▸ hn
    obtain rfl := Option.some.inj (hd'.symm.trans hd)
    exact ⟨now, d', hnow, hd', hheld.trans hone, hfree, hrests.cache, hrests.notified.trans hsilent⟩
  exact ⟨hlive.trans rfl, (htorn 0).2 ⟨_, rfl, rfl⟩, gone _ rfl rfl rfl rfl rfl⟩

end Process

end TileCache
