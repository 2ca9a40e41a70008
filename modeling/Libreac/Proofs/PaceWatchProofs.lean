import Libreac.PaceWatch
import Libreac.Pacer

/-!
# A watch on a steady wire

On a wire whose frames come at one pace, each a little early or late, the watch takes every window for what
it is. If that is the configured pace it never reports. If not, it reports as long as the pace lasts and
leaves half a minute between two reports. A change of the peer forgets the window and not the last report, so
a new peer is reported within the length of a window unless a report is still fresh.
-/

namespace Libreac

open Reactive (Event Machine fromLast fromLast_append_cons fromLast_concat)

/-- A step of the watch. -/
abbrev PaceEvent := Event PaceWatch PaceInput Bool

/-- The instant of a call. -/
def PaceInput.now : PaceInput → UInt64
  | .frame now => now
  | .reset now => now

/-- Whether the peer changed. -/
def PaceInput.isReset : PaceInput → Bool
  | .frame _ => false
  | .reset _ => true

/-! ## A steady wire -/

/-- Between two frames at a pace there is no less than this, in nanoseconds. -/
def Rate.leastGap : Rate → ℕ
  | .r44100 => 260621
  | .r48000 => 166681
  | .r96000 => 1

/-- And no more than this: the gaps of the three paces do not meet. -/
def Rate.mostGap : Rate → ℕ
  | .r44100 => 2000000
  | .r48000 => 260586
  | .r96000 => 166666

/-- The next call on a wire at that pace; behind a change of the peer the first frame may come at once. -/
structure Rate.Follows (r : Rate) (i j : PaceInput) : Prop where
  le : i.now ≤ j.now
  most : j.isReset = false → j.now.toNat ≤ i.now.toNat + r.mostGap
  least : i.isReset = false → j.isReset = false → i.now.toNat + r.leastGap ≤ j.now.toNat

/-- A wire at one pace; the clock has left zero. -/
structure SteadyWire (r : Rate) (is : List PaceInput) : Prop where
  started : ∀ i ∈ is, i.now ≠ 0
  spaced : is.IsChain r.Follows

variable {r : Rate} {w : PaceWatch} {i : PaceInput} {now : UInt64}

/-- Every call of a steady wire follows the one before. -/
theorem SteadyWire.legal {is : List PaceInput} (h : SteadyWire r is) {log : List PaceEvent} {e : PaceEvent}
    (he : paceMachine.StepOf w is log e) : e.input.now ≠ 0 ∧ ∀ l ∈ log.getLast?, r.Follows l.input e.input := by
  refine ⟨h.started _ (he.input_mem paceMachine), ?_⟩
  obtain ⟨rest, his⟩ := he.inputs paceMachine
  have hspaced := h.spaced
  rw [his, List.isChain_append] at hspaced
  intro l hl
  refine hspaced.2.2 l.input ?_ e.input rfl
  rw [List.getLast?_map]
  exact Option.mem_map_of_mem _ hl

/-! ## A window -/

/-- A window that is open behind the call `i`: its frames are as many as the pace makes of its length. -/
structure Watching (r : Rate) (i : PaceInput) (w : PaceWatch) : Prop where
  opened : w.winStart ≠ 0
  last : w.winLast = i.now
  le : w.winStart.toNat ≤ i.now.toNat
  early : i.now.toNat < w.winStart.toNat + 2000000000
  notFast : r.leastGap * w.winFrames.toNat + w.winStart.toNat ≤ i.now.toNat + r.leastGap
  notSlow : i.now.toNat ≤ w.winStart.toNat + r.mostGap * w.winFrames.toNat
  even : w.winMaxGap.toNat ≤ r.mostGap
  reset : i.isReset = true → w.winFrames = 0

/-- A window that has just been opened. -/
theorem Watching.start (w : PaceWatch) (h : i.now ≠ 0) : Watching r i (w.winOpen i.now) :=
  ⟨h, rfl, Nat.le_refl _, by change i.now.toNat < i.now.toNat + _; omega, by simp [PaceWatch.winOpen],
    by simp [PaceWatch.winOpen], by simp [PaceWatch.winOpen], fun _ => rfl⟩

/-- So many frames in two seconds are taken for the pace of their gaps, and are enough of them. -/
theorem rateSnapOver_steady {frames elapsed : UInt64} (hlong : 2000000000 ≤ elapsed.toNat)
    (hfast : r.leastGap * frames.toNat ≤ elapsed.toNat + r.leastGap)
    (hslow : elapsed.toNat ≤ r.mostGap * frames.toNat) :
    rateSnapOver frames elapsed = r.hz ∧ 1000 ≤ frames.toNat := by
  unfold rateSnapOver
  cases r <;> simp only [Rate.leastGap, Rate.mostGap] at hfast hslow
  · rw [if_pos (by omega)]
    exact ⟨rfl, by omega⟩
  · rw [if_neg (by omega), if_pos (by omega)]
    exact ⟨rfl, by omega⟩
  · rw [if_neg (by omega), if_neg (by omega)]
    exact ⟨rfl, by omega⟩

/-- The window behind one more frame, before it is looked at. -/
def PaceWatch.counted (w : PaceWatch) (now : UInt64) : PaceWatch :=
  { w with
    winMaxGap := if w.winMaxGap < now - w.winLast then now - w.winLast else w.winMaxGap
    winLast := now
    winFrames := w.winFrames + 1 }

/-- A frame on a steady wire is counted, or closes a window that is taken for what it is. -/
theorem Watching.frame (h : Watching r i w) (hf : r.Follows i (.frame now)) :
    (paceWatchFrame w now = (w.counted now, false) ∧ Watching r (.frame now) (w.counted now)) ∨
    (w.winStart.toNat + 2000000000 ≤ now.toNat ∧ ∃ frames elapsed, rateSnapOver frames elapsed = r.hz ∧
      paceWatchFrame w now = (w.winOpen now).judge now frames elapsed) := by
  have hle : i.now.toNat ≤ now.toNat := hf.le
  have hmost : now.toNat ≤ i.now.toNat + r.mostGap := hf.most rfl
  have hstart := h.le
  have hgap : (now - w.winLast).toNat = now.toNat - i.now.toNat := by
    rw [UInt64.toNat_sub_of_le _ _ (by rw [h.last]; exact hf.le), h.last]
  have helapsed : (now - w.winStart).toNat = now.toNat - w.winStart.toNat :=
    UInt64.toNat_sub_of_le _ _ (UInt64.le_iff_toNat_le.mpr (by omega))
  have hfew : w.winFrames.toNat + 1 < 18446744073709551616 := by
    have hearly := h.early
    have hfast := h.notFast
    have hpos : 1 ≤ r.leastGap := by cases r <;> simp [Rate.leastGap]
    have hcount : w.winFrames.toNat ≤ r.leastGap * w.winFrames.toNat := Nat.le_mul_of_pos_left _ hpos
    have hbound : r.leastGap ≤ 260621 := by cases r <;> simp [Rate.leastGap]
    omega
  have hframes : (w.winFrames + 1).toNat = w.winFrames.toNat + 1 := by
    rw [UInt64.toNat_add, UInt64.toNat_one, Nat.mod_eq_of_lt hfew]
  have hfast : r.leastGap * (w.winFrames.toNat + 1) + w.winStart.toNat ≤ now.toNat + r.leastGap := by
    have hold := h.notFast
    rw [Nat.mul_add, Nat.mul_one]
    cases hreset : i.isReset with
    | true =>
      rw [h.reset hreset, UInt64.toNat_zero, Nat.mul_zero]
      omega
    | false =>
      have hleast : i.now.toNat + r.leastGap ≤ now.toNat := hf.least hreset rfl
      omega
  have hslow : now.toNat ≤ w.winStart.toNat + r.mostGap * (w.winFrames.toNat + 1) := by
    have hold := h.notSlow
    rw [Nat.mul_add, Nat.mul_one]
    omega
  have heven : (w.counted now).winMaxGap.toNat ≤ r.mostGap := by
    have hold := h.even
    unfold PaceWatch.counted
    dsimp only
    split_ifs
    · omega
    · exact hold
  by_cases hshort : now - w.winStart < paceWindowNs
  · refine .inl ⟨?_, h.opened, rfl, ?_, ?_, ?_, ?_, heven, by rintro ⟨⟩⟩
    · unfold paceWatchFrame
      rw [if_neg h.opened]
      exact if_pos hshort
    · exact h.le.trans hle
    · rw [UInt64.lt_iff_toNat_lt, helapsed] at hshort
      change now.toNat < w.winStart.toNat + 2000000000
      change _ < 2000000000 at hshort
      omega
    · change r.leastGap * (w.winFrames + 1).toNat + w.winStart.toNat ≤ now.toNat + r.leastGap
      rw [hframes]
      exact hfast
    · change now.toNat ≤ w.winStart.toNat + r.mostGap * (w.winFrames + 1).toNat
      rw [hframes]
      exact hslow
  · have hlong : 2000000000 ≤ (now - w.winStart).toNat := UInt64.le_iff_toNat_le.mp (UInt64.not_lt.mp hshort)
    obtain ⟨hsnap, hmany⟩ := @rateSnapOver_steady r (w.winFrames + 1) (now - w.winStart) hlong
      (by rw [hframes, helapsed]; omega) (by rw [hframes, helapsed]; omega)
    refine .inr ⟨by omega, _, _, hsnap, ?_⟩
    have hgood : ¬ (w.winFrames + 1 < paceMinFrames ∨ paceMaxGapNs < (w.counted now).winMaxGap) := by
      have hbound : r.mostGap ≤ 2000000 := by cases r <;> simp [Rate.mostGap]
      rw [UInt64.lt_iff_toNat_lt, UInt64.lt_iff_toNat_lt]
      change ¬ (_ < 1000 ∨ 5000000 < _)
      omega
    unfold paceWatchFrame
    rw [if_neg h.opened]
    dsimp only
    rw [if_neg hshort]
    exact if_neg hgood

/-- A window of the configured pace is agreed on; another one is reported, unless the last report is fresh. -/
theorem judge_cases {frames elapsed : UInt64} (hsnap : rateSnapOver frames elapsed = r.hz) :
    (r.hz = w.configuredRate ∧
      w.judge now frames elapsed = ({ w with observedRate := r.hz, warned := 0 }, false)) ∨
    (r.hz ≠ w.configuredRate ∧ (w.warned ≠ 0 ∧ now - w.warned < paceWarnIntervalNs) ∧
      w.judge now frames elapsed = ({ w with observedRate := r.hz, windowsBad := w.windowsBad + 1 }, false)) ∨
    (r.hz ≠ w.configuredRate ∧ ¬ (w.warned ≠ 0 ∧ now - w.warned < paceWarnIntervalNs) ∧
      w.judge now frames elapsed =
        ({ w with observedRate := r.hz, windowsBad := w.windowsBad + 1, warned := now }, true)) := by
  unfold PaceWatch.judge
  rw [hsnap]
  dsimp only
  split_ifs with hsame hfresh
  · exact .inl ⟨hsame, rfl⟩
  · exact .inr (.inl ⟨hsame, hfresh, rfl⟩)
  · exact .inr (.inr ⟨hsame, hfresh, rfl⟩)

/-- A window is its start, its frames and their gaps. -/
theorem Watching.congr {w' : PaceWatch} (h : Watching r i w) (hstart : w'.winStart = w.winStart)
    (hlast : w'.winLast = w.winLast) (hframes : w'.winFrames = w.winFrames) (hgap : w'.winMaxGap = w.winMaxGap) :
    Watching r i w' := by
  exact ⟨by rw [hstart]; exact h.opened, by rw [hlast]; exact h.last, by rw [hstart]; exact h.le,
    by rw [hstart]; exact h.early, by rw [hframes, hstart]; exact h.notFast,
    by rw [hstart, hframes]; exact h.notSlow, by rw [hgap]; exact h.even, by rw [hframes]; exact h.reset⟩

/-! ## A run -/

/-- The steps since the peer changed. -/
def sinceReset (log : List PaceEvent) : List PaceEvent := fromLast (fun e => e.input.isReset) log

theorem sinceReset_ne_nil {log : List PaceEvent} (h : log ≠ []) : sinceReset log ≠ [] := by
  obtain ⟨log', e, rfl⟩ := (List.eq_nil_or_concat' log).resolve_left h
  unfold sinceReset
  rw [fromLast_concat]
  split_ifs <;> simp

/-- The watch after a log on a steady wire: the instant of its last report is that of the last one in the
log, and a window it has open began with the wire or half a minute after a report at most. -/
structure WatchTold (r : Rate) (c : ℤ) (log : List PaceEvent) (w : PaceWatch) : Prop where
  rate : w.configuredRate = c
  fresh : log = [] → w = paceWatchInit c
  watching : ∀ l ∈ log.getLast?, Watching r l.input w
  quiet : r.hz = c → ∀ l ∈ log, l.out = false
  reported : r.hz ≠ c → ∀ l ∈ log, l.out = true → w.warned ≠ 0 ∧ l.input.now ≤ w.warned
  warned : w.warned ≠ 0 → (∃ l ∈ log, l.out = true ∧ l.input.now = w.warned) ∧
    ∀ l ∈ log.getLast?, w.warned ≤ l.input.now
  recent : r.hz ≠ c → ∀ h ∈ (sinceReset log).head?, w.winStart = h.input.now ∨
    (w.warned ≠ 0 ∧ w.winStart.toNat < w.warned.toNat + 30000000000)

variable {c : ℤ} {log : List PaceEvent} {e : PaceEvent}

/-- The last report is behind. -/
theorem WatchTold.warned_le (h : WatchTold r c log w) (hne : w.warned ≠ 0) {now : UInt64}
    (hle : ∀ l ∈ log.getLast?, l.input.now ≤ now) : w.warned ≤ now := by
  obtain ⟨⟨l, hl, -⟩, hlast⟩ := h.warned hne
  cases hlog : log.getLast? with
  | none =>
    rw [List.getLast?_eq_none_iff] at hlog
    rw [hlog] at hl
    cases hl
  | some l₀ => exact UInt64.le_trans (hlast l₀ hlog) (hle l₀ hlog)

/-- A wire of the configured pace was never reported. -/
theorem WatchTold.never (h : WatchTold r c log w) (hc : r.hz = c) : w.warned = 0 := by
  by_contra hne
  obtain ⟨⟨l, hl, htrue, -⟩, -⟩ := h.warned hne
  rw [h.quiet hc l hl] at htrue
  cases htrue

/-- A step without a report that leaves the last one in force. -/
theorem WatchTold.silent (h : WatchTold r c log w) {w' : PaceWatch} (hout : e.out = false)
    (hwatch : Watching r e.input w') (hrate : w'.configuredRate = w.configuredRate) (hwarned : w'.warned = w.warned)
    (hle : ∀ l ∈ log.getLast?, l.input.now ≤ e.input.now)
    (hrecent : r.hz ≠ c → ∀ h ∈ (sinceReset (log ++ [e])).head?, w'.winStart = h.input.now ∨
      (w'.warned ≠ 0 ∧ w'.winStart.toNat < w'.warned.toNat + 30000000000)) : WatchTold r c (log ++ [e]) w' := by
  refine ⟨hrate.trans h.rate, by simp, ?_, ?_, ?_, ?_, hrecent⟩
  · intro l hl
    rw [List.getLast?_concat] at hl
    obtain rfl := Option.some.inj hl
    exact hwatch
  · intro hsame l hl
    rcases List.mem_append.mp hl with hl | hl
    · exact h.quiet hsame l hl
    · rw [List.mem_singleton.mp hl]
      exact hout
  · intro hother l hl hl'
    rw [hwarned]
    rcases List.mem_append.mp hl with hl | hl
    · exact h.reported hother l hl hl'
    · rw [List.mem_singleton.mp hl, hout] at hl'
      cases hl'
  · intro hne
    rw [hwarned] at hne ⊢
    obtain ⟨⟨l, hl, hl'⟩, -⟩ := h.warned hne
    refine ⟨⟨l, List.mem_append_left _ hl, hl'⟩, ?_⟩
    intro l' hl''
    rw [List.getLast?_concat] at hl''
    obtain rfl := Option.some.inj hl''
    exact h.warned_le hne hle

/-- A step that reports and opens the next window. -/
theorem WatchTold.reports (h : WatchTold r c log w) {w' : PaceWatch} (hc : r.hz ≠ c) (hout : e.out = true)
    (hpos : e.input.now ≠ 0) (hwatch : Watching r e.input w') (hrate : w'.configuredRate = w.configuredRate)
    (hwarned : w'.warned = e.input.now) (hstart : w'.winStart = e.input.now)
    (hle : ∀ l ∈ log.getLast?, l.input.now ≤ e.input.now) : WatchTold r c (log ++ [e]) w' := by
  refine ⟨hrate.trans h.rate, by simp, ?_, fun hsame => absurd hsame hc, ?_, ?_, ?_⟩
  · intro l hl
    rw [List.getLast?_concat] at hl
    obtain rfl := Option.some.inj hl
    exact hwatch
  · intro _ l hl htrue
    rw [hwarned]
    refine ⟨hpos, ?_⟩
    rcases List.mem_append.mp hl with hl | hl
    · obtain ⟨hne, hle'⟩ := h.reported hc l hl htrue
      exact UInt64.le_trans hle' (h.warned_le hne hle)
    · rw [List.mem_singleton.mp hl]
      exact UInt64.le_refl _
  · intro _
    rw [hwarned]
    refine ⟨⟨e, List.mem_append_right _ (List.mem_singleton_self _), hout, rfl⟩, ?_⟩
    intro l hl
    rw [List.getLast?_concat] at hl
    obtain rfl := Option.some.inj hl
    exact UInt64.le_refl _
  · intro _ first _
    rw [hwarned, hstart]
    exact .inr ⟨hpos, Nat.lt_add_of_pos_right (by decide)⟩

theorem head?_sinceReset {log : List PaceEvent} {e : PaceEvent} (hlog : log ≠ []) (h : e.input.isReset = false) :
    (sinceReset (log ++ [e])).head? = (sinceReset log).head? := by
  have hne := sinceReset_ne_nil hlog
  unfold sinceReset at hne ⊢
  rw [fromLast_concat, h, if_neg Bool.false_ne_true, List.head?_append_of_ne_nil _ hne]

/-- The first frame of all opens a window and is counted in it. -/
theorem WatchTold.opens (h : WatchTold r c [] w) {now : UInt64} (hpos : now ≠ 0) :
    WatchTold r c ([] ++ [paceMachine.event w (.frame now)]) (paceMachine.step w (.frame now)).1 := by
  have hw := h.fresh rfl
  have hstep : paceMachine.step w (.frame now) = ({ w.winOpen now with winFrames := 1 }, false) := by
    rw [hw]
    rfl
  have hout : (paceMachine.event w (.frame now)).out = false := by
    rw [paceMachine.event_out, hstep]
  rw [hstep]
  refine h.silent hout ?_ rfl rfl (by simp) ?_
  · refine ⟨hpos, rfl, Nat.le_refl _, ?_, ?_, ?_, ?_, by rintro ⟨⟩⟩
    · change now.toNat < now.toNat + _
      omega
    · change r.leastGap * 1 + now.toNat ≤ now.toNat + r.leastGap
      omega
    · exact Nat.le_add_right _ _
    · exact Nat.zero_le _
  · intro _ first hfirst
    obtain rfl := Option.some.inj hfirst
    exact .inl rfl

/-- A frame that closes its window is judged: it is agreed with, or the last report is fresh, or it is
reported. -/
theorem WatchTold.closes (h : WatchTold r c log w) {now frames elapsed : UInt64} (hpos : now ≠ 0)
    (hle : ∀ l ∈ log.getLast?, l.input.now ≤ now) (hsnap : rateSnapOver frames elapsed = r.hz)
    (hclose : paceMachine.step w (.frame now) = (w.winOpen now).judge now frames elapsed) :
    WatchTold r c (log ++ [paceMachine.event w (.frame now)]) (paceMachine.step w (.frame now)).1 := by
  have hstart : Watching r (.frame now) (w.winOpen now) := Watching.start w hpos
  rcases @judge_cases r (w.winOpen now) now frames elapsed hsnap with
    ⟨hsame, hjudge⟩ | ⟨-, ⟨hne, hshort⟩, hjudge⟩ | ⟨hother, -, hjudge⟩
  all_goals
    have hstep := hclose.trans hjudge
    have hpost : (paceMachine.step w (.frame now)).1 = _ := congrArg Prod.fst hstep
    rw [hpost]
  · have hc : r.hz = c := hsame.trans h.rate
    exact h.silent (congrArg Prod.snd hstep) (hstart.congr rfl rfl rfl rfl) rfl (h.never hc).symm hle
      fun hother => absurd hc hother
  · refine h.silent (congrArg Prod.snd hstep) (hstart.congr rfl rfl rfl rfl) rfl rfl hle
      fun _ _ _ => .inr ⟨hne, ?_⟩
    change now - w.warned < paceWarnIntervalNs at hshort
    rw [UInt64.lt_iff_toNat_lt, UInt64.toNat_sub_of_le _ _ (h.warned_le hne hle)] at hshort
    change _ < 30000000000 at hshort
    change now.toNat < w.warned.toNat + 30000000000
    omega
  · have hc : r.hz ≠ c := fun heq => hother (heq.trans h.rate.symm)
    exact h.reports hc (congrArg Prod.snd hstep) hpos (hstart.congr rfl rfl rfl rfl) rfl rfl rfl hle

theorem WatchTold.step (h : WatchTold r c log w) (i : PaceInput) (hpos : i.now ≠ 0)
    (hf : ∀ l ∈ log.getLast?, r.Follows l.input i) :
    WatchTold r c (log ++ [paceMachine.event w i]) (paceMachine.step w i).1 := by
  have hle : ∀ l ∈ log.getLast?, l.input.now ≤ (paceMachine.event w i).input.now := fun l hl => (hf l hl).le
  cases i with
  | reset now =>
    refine h.silent rfl (Watching.start _ hpos) rfl rfl hle ?_
    intro _ first hfirst
    unfold sinceReset at hfirst
    rw [fromLast_concat, if_pos (show (paceMachine.event w (.reset now)).input.isReset = true from rfl)] at hfirst
    obtain rfl := Option.some.inj hfirst
    exact .inl rfl
  | frame now =>
    by_cases hlog : log = []
    · subst hlog
      exact h.opens hpos
    · obtain ⟨log', l, rfl⟩ := (List.eq_nil_or_concat' log).resolve_left hlog
      have hlast : (log' ++ [l]).getLast? = some l := List.getLast?_concat
      rcases (h.watching l hlast).frame (hf l hlast) with ⟨hcount, hcounted⟩ | ⟨-, frames, elapsed, hsnap, hclose⟩
      · have hout : (paceMachine.event w (.frame now)).out = false := congrArg Prod.snd hcount
        have hpost : (paceMachine.step w (.frame now)).1 = w.counted now := congrArg Prod.fst hcount
        rw [hpost]
        refine h.silent hout hcounted rfl rfl hle ?_
        intro hother first hfirst
        rw [head?_sinceReset hlog rfl] at hfirst
        exact h.recent hother first hfirst
      · exact h.closes hpos hle hsnap hclose

/-- A report comes half a minute after any before it. -/
theorem WatchTold.apart (h : WatchTold r c log w) {i : PaceInput}
    (hf : ∀ l ∈ log.getLast?, r.Follows l.input i) (hc : r.hz ≠ c)
    (hout : (paceMachine.event w i).out = true) {l : PaceEvent} (hl : l ∈ log) (hl' : l.out = true) :
    l.input.now.toNat + 30000000000 ≤ i.now.toNat := by
  obtain ⟨hne, hle⟩ := h.reported hc l hl hl'
  cases i with
  | reset now => cases hout
  | frame now =>
    obtain ⟨log', last, rfl⟩ := (List.eq_nil_or_concat' log).resolve_left (List.ne_nil_of_mem hl)
    have hlast : (log' ++ [last]).getLast? = some last := List.getLast?_concat
    have hwarned : w.warned ≤ now := UInt64.le_trans ((h.warned hne).2 last hlast) (hf last hlast).le
    change (paceWatchFrame w now).2 = true at hout
    rcases (h.watching last hlast).frame (hf last hlast) with ⟨hcount, -⟩ | ⟨-, frames, elapsed, hsnap, hclose⟩
    · rw [hcount] at hout
      cases hout
    · rw [hclose] at hout
      rcases @judge_cases r (w.winOpen now) now frames elapsed hsnap with
        ⟨-, hjudge⟩ | ⟨-, -, hjudge⟩ | ⟨-, hdue, -⟩
      · rw [hjudge] at hout
        cases hout
      · rw [hjudge] at hout
        cases hout
      · have hlong : ¬ now - w.warned < paceWarnIntervalNs := fun hshort => hdue ⟨hne, hshort⟩
        rw [UInt64.lt_iff_toNat_lt, UInt64.toNat_sub_of_le _ _ hwarned] at hlong
        change ¬ _ < 30000000000 at hlong
        change _ ≤ now.toNat
        have hle' := UInt64.le_iff_toNat_le.mp hle
        omega

/-- On a steady wire the configured pace is never reported. Any other is, and two reports are half a minute
apart. From two seconds behind the peer's first frame on, or behind the call that forgot the peer before,
there is a report that is less than 32 seconds old: a new one, unless there was one in the 30 seconds in
front. -/
theorem pace_is_told {is : List PaceInput} (hsteady : SteadyWire r is) (c : ℤ)
    (he : paceMachine.StepOf (paceWatchInit c) is log e) :
    (r.hz = c → e.out = false) ∧
    (r.hz ≠ c →
      (e.out = true → ∀ l ∈ log, l.out = true → l.input.now.toNat + 30000000000 ≤ e.input.now.toNat) ∧
      ∀ before first since, log ++ [e] = before ++ first :: since →
        (before = [] ∨ first.input.isReset = true) → (∀ l ∈ since, l.input.isReset = false) →
        first.input.now.toNat + 2000000000 ≤ e.input.now.toNat →
        (∃ l ∈ first :: since, l.out = true ∧ e.input.now.toNat < l.input.now.toNat + 32000000000) ∨
        ∃ l ∈ before, l.out = true ∧ first.input.now.toNat < l.input.now.toNat + 30000000000 ∧
          e.input.now.toNat < l.input.now.toNat + 32000000000) := by
  have hlegal : ∀ {log e}, paceMachine.StepOf (paceWatchInit c) is log e →
      e.input.now ≠ 0 ∧ ∀ l ∈ log.getLast?, r.Follows l.input e.input := fun he => hsteady.legal he
  obtain ⟨hpre, heq⟩ := paceMachine.trace_invariant_at (H := WatchTold r c)
    (L := fun log e => e.input.now ≠ 0 ∧ ∀ l ∈ log.getLast?, r.Follows l.input e.input)
    ⟨rfl, fun _ => rfl, by simp, by simp, by simp, fun h => absurd rfl h, by simp [sinceReset]⟩
    (fun log w i h hl => h.step i hl.1 hl.2) (fun log e he => hlegal he) he
  obtain ⟨hpos, hf⟩ := hlegal he
  have hpost := hpre.step e.input hpos hf
  rw [← heq] at hpost
  have hlast : (log ++ [e]).getLast? = some e := List.getLast?_concat
  refine ⟨fun hc => hpost.quiet hc e (by simp), fun hc => ⟨?_, ?_⟩⟩
  · intro hout l hl hl'
    rw [heq] at hout
    exact hpre.apart hf hc hout hl hl'
  · intro before first since hsplit hfirst hsince hlong
    have hhead : first ∈ (sinceReset (log ++ [e])).head? := by
      unfold sinceReset
      rw [hsplit, fromLast_append_cons _ hfirst hsince]
      rfl
    have hearly := (hpost.watching e hlast).early
    rcases hpost.recent hc first hhead with hstart | ⟨hne, hrecent⟩
    · rw [hstart] at hearly
      omega
    · obtain ⟨⟨l, hl, hl', hnow⟩, -⟩ := hpost.warned hne
      have hfresh : e.input.now.toNat < l.input.now.toNat + 32000000000 := by
        rw [hnow]
        omega
      rw [hsplit] at hl
      rcases List.mem_append.mp hl with hl | hl
      · exact .inr ⟨l, hl, hl', by omega, hfresh⟩
      · exact .inl ⟨l, hl, hl', hfresh⟩

/-- The frames of a box at 44.1 kHz, as late as they come. -/
def lateFrames (t : ℕ) : ℕ → List PaceInput
  | 0 => []
  | n + 1 => .frame (UInt64.ofNat t) :: lateFrames (t + 2000000) n

theorem toNat_instant {t : ℕ} (h : t < 18446744073709551616) : (UInt64.ofNat t).toNat = t := by
  rw [UInt64.toNat_ofNat', Nat.mod_eq_of_lt h]

theorem lateFrames_steady {t n : ℕ} (ht : 0 < t) (hn : t + 2000000 * n < 18446744073709551616) :
    (∀ i ∈ lateFrames t n, i.now ≠ 0 ∧ i.isReset = false ∧ t ≤ i.now.toNat ∧
      i.now.toNat + 2000000 ≤ t + 2000000 * n) ∧
      (lateFrames t n).IsChain (Rate.Follows .r44100) := by
  induction n generalizing t with
  | zero => simp [lateFrames]
  | succ n ih =>
    obtain ⟨hall, hchain⟩ := ih (t := t + 2000000) (by omega) (by omega)
    have hnow : (UInt64.ofNat t).toNat = t := toNat_instant (by omega)
    refine ⟨?_, ?_⟩
    · intro i hi
      rcases List.mem_cons.mp hi with rfl | hi
      · refine ⟨?_, rfl, hnow.ge, ?_⟩
        · intro hzero
          have hnat := congrArg UInt64.toNat hzero
          rw [show (PaceInput.frame (UInt64.ofNat t)).now = UInt64.ofNat t from rfl, hnow] at hnat
          exact absurd hnat ht.ne'
        · change (UInt64.ofNat t).toNat + 2000000 ≤ _
          omega
      · obtain ⟨h₁, h₂, h₃, h₄⟩ := hall i hi
        exact ⟨h₁, h₂, by omega, by omega⟩
    · cases n with
      | zero => exact .singleton _
      | succ n =>
        obtain ⟨t', ht'⟩ : ∃ t', t' = t + 2000000 := ⟨_, rfl⟩
        have hnext : (UInt64.ofNat t').toNat = t' := toNat_instant (by omega)
        rw [lateFrames, ← ht']
        rw [← ht'] at hchain
        refine .cons_cons ⟨?_, fun _ => ?_, fun _ _ => ?_⟩ hchain
        · change UInt64.ofNat t ≤ UInt64.ofNat t'
          rw [UInt64.le_iff_toNat_le]
          omega
        · change (UInt64.ofNat t').toNat ≤ (UInt64.ofNat t).toNat + 2000000
          omega
        · change (UInt64.ofNat t).toNat + 260621 ≤ (UInt64.ofNat t').toNat
          omega

theorem lateFrames_concat (t n : ℕ) :
    lateFrames t (n + 1) = lateFrames t n ++ [.frame (UInt64.ofNat (t + 2000000 * n))] := by
  induction n generalizing t with
  | zero => rfl
  | succ n ih =>
    have hlast : t + 2000000 + 2000000 * n = t + 2000000 * (n + 1) := by omega
    rw [lateFrames, ih, hlast, lateFrames, List.cons_append]

/-- The link of the box bounces behind its first window. -/
def bouncingBox : List PaceInput := lateFrames 1 1001 ++ .reset 2000000101 :: lateFrames 2000000201 1001

theorem bouncingBox_steady : SteadyWire .r44100 bouncingBox ∧ ∀ i ∈ bouncingBox, i.now.toNat ≤ 4000000201 := by
  obtain ⟨hall, hchain⟩ := @lateFrames_steady 1 1001 (by decide) (by decide)
  obtain ⟨hall', hchain'⟩ := @lateFrames_steady 2000000201 1001 (by decide) (by decide)
  refine ⟨⟨?_, ?_⟩, ?_⟩
  · intro i hi
    rcases List.mem_append.mp hi with hi | hi
    · exact (hall i hi).1
    · rcases List.mem_cons.mp hi with rfl | hi
      · decide
      · exact (hall' i hi).1
  · refine List.isChain_append.mpr ⟨hchain, .cons_cons ?_ hchain', ?_⟩
    · exact ⟨by decide, fun _ => by decide, fun h => absurd h (by decide)⟩
    · intro i hi j hj
      obtain rfl := Option.some.inj hj
      obtain ⟨-, -, -, hle⟩ := hall i (List.mem_of_getLast? hi)
      refine ⟨?_, fun h => absurd h (by decide), fun _ h => absurd h (by decide)⟩
      rw [UInt64.le_iff_toNat_le]
      change _ ≤ 2000000101
      omega
  · intro i hi
    rcases List.mem_append.mp hi with hi | hi
    · have hle := (hall i hi).2.2.2
      omega
    · rcases List.mem_cons.mp hi with rfl | hi
      · decide
      · have hle := (hall' i hi).2.2.2
        omega

/-- On a desk at 96 kHz its first window is reported. The window behind the bounce is not: that report is
still fresh. -/
theorem pace_is_told_bounce :
    (∃ l ∈ paceMachine.trace (paceWatchInit 96000) (lateFrames 1 1001), l.out = true) ∧
      ∀ l ∈ paceMachine.trace (paceMachine.run (paceWatchInit 96000) (lateFrames 1 1001))
        (.reset 2000000101 :: lateFrames 2000000201 1001), l.out = false := by
  have hother : Rate.hz .r44100 ≠ 96000 := by decide
  have htold : ∃ l ∈ paceMachine.trace (paceWatchInit 96000) (lateFrames 1 1001), l.out = true := by
    obtain ⟨hall, hchain⟩ := @lateFrames_steady 1 1001 (by decide) (by decide)
    rw [lateFrames_concat] at hall hchain
    have hstep := paceMachine.stepOf_last (paceWatchInit 96000) (lateFrames 1 1000)
      (.frame (UInt64.ofNat (1 + 2000000 * 1000)))
    have hsteady : SteadyWire .r44100 (lateFrames 1 1000 ++ [.frame (UInt64.ofNat (1 + 2000000 * 1000))]) :=
      ⟨fun i hi => (hall i hi).1, hchain⟩
    have hsplit := paceMachine.trace_concat (paceWatchInit 96000) (lateFrames 1 1000)
      (.frame (UInt64.ofNat (1 + 2000000 * 1000)))
    rw [← lateFrames_concat] at hsplit
    have hframes : ∀ l ∈ paceMachine.trace (paceWatchInit 96000) (lateFrames 1 1001), l.input.isReset = false := by
      intro l hl
      obtain ⟨pre, post, hpost⟩ := List.append_of_mem hl
      have hmem := Reactive.Machine.StepOf.input_mem paceMachine ⟨post, hpost⟩
      rw [lateFrames_concat] at hmem
      exact (hall l.input hmem).2.1
    have hlong := ((pace_is_told hsteady 96000 hstep).2 hother).2 [] _ _ hsplit.symm (.inl rfl)
      (fun l hl => hframes l (List.mem_cons_of_mem _ hl)) (by decide)
    rcases hlong with ⟨l, hl, hout, -⟩ | ⟨l, hl, -⟩
    · exact ⟨l, hl, hout⟩
    · cases hl
  refine ⟨htold, ?_⟩
  intro l hl
  obtain ⟨told, hmem, hout⟩ := htold
  obtain ⟨pre, post, hsplit⟩ := List.append_of_mem hl
  have hstep : paceMachine.StepOf (paceWatchInit 96000) bouncingBox
      (paceMachine.trace (paceWatchInit 96000) (lateFrames 1 1001) ++ pre) l := by
    refine ⟨post, ?_⟩
    rw [bouncingBox, Reactive.Machine.trace_append, hsplit, List.append_assoc]
  cases hnew : l.out with
  | false => rfl
  | true =>
    have hapart := ((pace_is_told bouncingBox_steady.1 96000 hstep).2 hother).1 hnew told
      (List.mem_append_left _ hmem) hout
    have hlate := bouncingBox_steady.2 _ (hstep.input_mem paceMachine)
    omega

end Libreac
