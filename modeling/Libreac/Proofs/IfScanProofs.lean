import Mathlib.Tactic.SplitIfs
import Libreac.IfScan

/-!
# Proofs: the interfaces of the host

What a call makes of the entry of one name, and what it emits, is said once (`Moves` and `observed`).
The events of a call take what the caller has open from the entry before it to the entry after it, so
what the caller folds from the delivered events is what the table says.
-/

namespace Libreac

open Reactive

variable {s s' s'' : IfScan} {name : IfName} {e : IfEntry} {now : UInt64}

/-! ## What a call does to the table and to the ring -/

theorem IfScan.emitAll_ifs (s : IfScan) (es : List IfEvent) : (s.emitAll es).ifs = s.ifs := by
  induction es generalizing s with
  | nil => rfl
  | cons e es ih => exact ih (s.emit e)

theorem IfScan.emitAll_ring (s : IfScan) (es : List IfEvent) : (s.emitAll es).ring = s.ring.pushAll es := by
  induction es generalizing s with
  | nil => rfl
  | cons e es ih => exact ih (s.emit e)

/-- Events that find room are not dropped. -/
theorem IfScan.emitAll_droppedEv (s : IfScan) (es : List IfEvent)
    (hroom : s.ring.items.length + es.length < ifscanEvents) : (s.emitAll es).droppedEv = s.droppedEv := by
  unfold ifscanEvents at hroom
  induction es generalizing s with
  | nil => rfl
  | cons e es ih =>
    rw [List.length_cons] at hroom
    have hfree : ¬ s.ring.full = true := by
      unfold BoundedQueue.full ifscanEvents
      rw [decide_eq_true_iff]
      omega
    have hlen : (s.emit e).ring.items.length ≤ s.ring.items.length + 1 := by
      show (s.ring.push e).items.length ≤ _
      rw [BoundedQueue.push_items, List.length_take, List.length_append, List.length_singleton]
      exact Nat.min_le_right _ _
    refine (ih (s.emit e) (by omega)).trans ?_
    show (if s.ring.full then s.droppedEv + 1 else s.droppedEv) = s.droppedEv
    rw [if_neg hfree]

/-- The entry of `name` becomes `o`, no other entry changes, and `es` is emitted. -/
structure Moves (s s' : IfScan) (name : IfName) (o : Option IfEntry) (es : List IfEvent) : Prop where
  find : ∀ n, s'.find n = if n = name then o else s.find n
  ring : s'.ring = s.ring.pushAll es
  kept : s.ring.items.length + es.length < ifscanEvents → s'.droppedEv = s.droppedEv

theorem Moves.refl (s : IfScan) (name : IfName) : Moves s s name (s.find name) [] where
  find n := by
    split_ifs with h
    · rw [h]
    · rfl
  ring := rfl
  kept _ := rfl

theorem Moves.trans {o o' : Option IfEntry} {es es' : List IfEvent} (h : Moves s s' name o es)
    (h' : Moves s' s'' name o' es') : Moves s s'' name o' (es ++ es') where
  find n := by
    rw [h'.find, h.find]
    split_ifs <;> rfl
  ring := by rw [h'.ring, h.ring, BoundedQueue.pushAll_append]
  kept hroom := by
    rw [List.length_append] at hroom
    have hlen : s'.ring.items.length ≤ s.ring.items.length + es.length := by
      rw [h.ring, BoundedQueue.pushAll_items, List.length_take, List.length_append]
      exact Nat.min_le_right _ _
    rw [h'.kept (by omega), h.kept (by omega)]

/-- An emission alone. -/
theorem Moves.emits (s : IfScan) (name : IfName) (es : List IfEvent) :
    Moves s (s.emitAll es) name (s.find name) es where
  find n := by
    unfold IfScan.find
    rw [IfScan.emitAll_ifs]
    split_ifs with h
    · rw [h]
    · rfl
  ring := IfScan.emitAll_ring s es
  kept := IfScan.emitAll_droppedEv s es

/-- A write alone. -/
theorem Moves.writes {o : Option IfEntry} (ho : o ≠ none → s.find name ≠ none) :
    Moves s (s.write name o) name o [] where
  find n := by
    show (s.ifs.alter name fun _ => o).find n = _
    rw [SlotTable.find_alter]
    refine if_ctx_congr Iff.rfl ?_ fun _ => rfl
    rintro rfl
    cases o with
    | none => cases s.ifs.find n <;> rfl
    | some e =>
      obtain ⟨e', he'⟩ := Option.ne_none_iff_exists'.mp (ho nofun)
      rw [show s.ifs.find n = some e' from he']
      rfl
  ring := rfl
  kept _ := rfl

/-- A write, and then an emission. -/
theorem Moves.writes_emits {o : Option IfEntry} (ho : o ≠ none → s.find name ≠ none) (es : List IfEvent) :
    Moves s ((s.write name o).emitAll es) name o es := by
  have hwrite : Moves s (s.write name o) name o [] := Moves.writes ho
  have hemit := hwrite.trans (Moves.emits _ name es)
  rw [hwrite.find, if_pos rfl, List.nil_append] at hemit
  exact hemit

theorem leave_moves (s : IfScan) (name : IfName) (e : IfEntry) :
    Moves s (s.leave name e) name none (e.state.leaves.map (IfEvent.mk · name)) := by
  have hfree : Moves (s.emitAll (e.state.leaves.map (IfEvent.mk · name))) (s.leave name e) name none [] :=
    Moves.writes fun h => absurd rfl h
  have hleave := (Moves.emits s name (e.state.leaves.map (IfEvent.mk · name))).trans hfree
  rw [List.append_nil] at hleave
  exact hleave

theorem carrier_moves (h : s.find name = some e) (up : Bool) (now : UInt64) :
    Moves s (s.carrier name e up now) name (some (e.carrier up now).1)
      ((e.carrier up now).2.map (IfEvent.mk · name)) :=
  Moves.writes_emits (fun _ => by rw [h]; nofun) _

/-- What `reac_ifscan_observe` makes of the entry of a name, and what it emits. -/
def observed (o : Option IfEntry) (room : Bool) (ifindex : ℤ) (ether up : Bool) (now : UInt64) :
    Option IfEntry × List IfVerb :=
  let left := o.elim [] fun e => e.state.leaves
  if ether then
    match o.filter fun e => e.ifindex = ifindex with
    | some e => (some (e.carrier up now).1, (e.carrier up now).2)
    | none =>
      if room then
        (some (IfEntry.carrier { ifindex } up now).1, left ++ (IfEntry.carrier { ifindex } up now).2)
      else (none, left)
  else (none, left)

/-- There is a slot for `name`: its own, or a free one. -/
def IfScan.room (s : IfScan) (name : IfName) : Bool := (s.find name).isSome || !s.ifs.full

/-- A slot that was freed is free. -/
theorem full_of_leave (h : s.find name = some e) (es : List IfEvent) :
    ((s.emitAll es).write name none).ifs.full = false := by
  have hmem : some (name, e) ∈ s.ifs.slots :=
    SlotTable.mem_entries.mp ((SlotTable.find_eq_some_iff s.ifs name e).mp h)
  have hfree : none ∈ ((s.emitAll es).write name none).ifs.slots := by
    show none ∈ ((s.emitAll es).ifs.alter name fun _ => none).slots
    rw [IfScan.emitAll_ifs]
    exact List.mem_map.mpr ⟨_, hmem, by simp [SlotTable.alterSlot]⟩
  rw [← Bool.not_eq_true]
  intro hfull
  cases List.all_eq_true.mp hfull none hfree

theorem renumber_moves (s : IfScan) (name : IfName) (ifindex : ℤ) :
    Moves s (s.renumber name ifindex) name ((s.find name).filter fun e => e.ifindex = ifindex)
      (((s.find name).elim [] fun e => if e.ifindex = ifindex then [] else e.state.leaves).map
        (IfEvent.mk · name)) := by
  unfold IfScan.renumber
  cases h : s.find name with
  | none =>
    have hstay := Moves.refl s name
    rw [h] at hstay
    exact hstay
  | some e =>
    by_cases hix : e.ifindex = ifindex
    · have hstay := Moves.refl s name
      rw [h] at hstay
      simpa [Option.filter_some, hix] using hstay
    · simpa [Option.filter_some, hix] using leave_moves s name e

theorem track_moves (s : IfScan) (name : IfName) (ifindex : ℤ) (up : Bool) (now : UInt64) :
    Moves s (s.track name ifindex up now) name
      ((s.find name).elim (if s.ifs.full then none else some (IfEntry.carrier { ifindex } up now).1)
        fun e => some (e.carrier up now).1)
      (((s.find name).elim (if s.ifs.full then [] else (IfEntry.carrier { ifindex } up now).2)
        fun e => (e.carrier up now).2).map (IfEvent.mk · name)) := by
  unfold IfScan.track
  split
  · next e h =>
    rw [h]
    exact carrier_moves h up now
  · next h =>
    have hnone : s.find name = none := h
    simp only [hnone, Option.elim_none]
    by_cases hfull : s.ifs.full = true
    · rw [if_pos hfull, if_pos hfull, if_pos hfull]
      have hstay := Moves.refl s name
      rw [hnone] at hstay
      exact ⟨hstay.find, hstay.ring, hstay.kept⟩
    · rw [if_neg hfull, if_neg hfull, if_neg hfull]
      have hfind : ∀ n, (s.ifs.insert name { ifindex } h).find n =
          if n = name then some { ifindex } else s.ifs.find n :=
        SlotTable.find_insert s.ifs h (by simpa using hfull)
      have hown : IfScan.find { s with ifs := s.ifs.insert name { ifindex } h } name = some { ifindex } :=
        (hfind name).trans (if_pos rfl)
      have hmoves := carrier_moves hown up now
      refine ⟨?_, hmoves.ring, hmoves.kept⟩
      intro n
      rw [hmoves.find]
      split_ifs with hn
      · rfl
      · exact (hfind n).trans (if_neg hn)

theorem observe_moves {ifindex : ℤ} {ether up : Bool} (hname : ¬ (name = [] ∨ 16 ≤ name.length)) :
    Moves s (ifscanObserve s name ifindex ether up now) name
      (observed (s.find name) (s.room name) ifindex ether up now).1
      ((observed (s.find name) (s.room name) ifindex ether up now).2.map (IfEvent.mk · name)) := by
  unfold ifscanObserve observed
  rw [if_neg hname]
  cases ether with
  | false =>
    cases h : s.find name with
    | none =>
      have hstay := Moves.refl s name
      rw [h] at hstay
      exact hstay
    | some e => exact leave_moves s name e
  | true =>
    have hmoves := (renumber_moves s name ifindex).trans (track_moves _ name ifindex up now)
    rw [(renumber_moves s name ifindex).find, if_pos rfl, ← List.map_append] at hmoves
    unfold IfScan.room
    cases h : s.find name with
    | none =>
      have hsame : s.renumber name ifindex = s := by rw [IfScan.renumber, h]
      rw [h, hsame] at hmoves
      cases hfull : s.ifs.full <;> simpa [hfull, h, hsame] using hmoves
    | some e =>
      by_cases hix : e.ifindex = ifindex
      · rw [h] at hmoves
        simpa [Option.filter_some, hix] using hmoves
      · have hleft : s.renumber name ifindex = s.leave name e := by
          rw [IfScan.renumber, h]
          exact if_pos hix
        have hfull : (s.leave name e).ifs.full = false := full_of_leave h _
        rw [h, hleft] at hmoves
        simpa [Option.filter_some, hix, hfull, hleft] using hmoves

theorem gone_moves (s : IfScan) (name : IfName) (ifindex : ℤ) :
    ifscanGone s name ifindex = s ∨
      ∃ e, s.find name = some e ∧ ifscanGone s name ifindex = s.leave name e := by
  unfold ifscanGone
  split_ifs
  · exact .inl rfl
  · cases h : s.find name with
    | none => exact .inl rfl
    | some e =>
      dsimp only
      split_ifs
      · exact .inl rfl
      · exact .inr ⟨e, rfl, rfl⟩

theorem heard_moves (s : IfScan) (name : IfName) (now : UInt64) :
    ifscanHeard s name now = s ∨
      ∃ e, s.find name = some e ∧ e.state = .linked ∧ (e.retryAfterNs = 0 ∨ e.retryAfterNs ≤ now) ∧
        Moves s (ifscanHeard s name now) name (some { e with state := .segment, retryAfterNs := 0 })
          ([IfVerb.serve].map (IfEvent.mk · name)) := by
  unfold ifscanHeard
  cases h : s.find name with
  | none => exact .inl rfl
  | some e =>
    dsimp only
    split_ifs with hwait
    · exact .inl rfl
    · rw [not_or, not_not] at hwait
      refine .inr ⟨e, rfl, hwait.1, ?_, Moves.writes_emits (fun _ => by rw [h]; nofun) [⟨.serve, name⟩]⟩
      by_cases hretry : e.retryAfterNs = 0
      · exact .inl hretry
      · exact .inr (UInt64.not_lt.mp fun hlt => hwait.2 ⟨hretry, hlt⟩)

/-- What `reac_ifscan_serve_failed` makes of an entry, and what it emits. -/
def IfEntry.refused (e : IfEntry) (now : UInt64) : IfEntry × List IfVerb :=
  let e' := { e with holdUntilNs := 0, retryAfterNs := now + ifscanRetryNs }
  match e.state with
  | .segment => ({ e' with state := .linked }, [.listen])
  | .hold => ({ e' with state := .down }, [])
  | .down | .linked => (e, [])

theorem serveFailed_moves (h : s.find name = some e) (now : UInt64) :
    Moves s (ifscanServeFailed s name now) name (some (e.refused now).1)
      ((e.refused now).2.map (IfEvent.mk · name)) := by
  have hsome : s.find name ≠ none := by
    rw [h]
    nofun
  have hstay := Moves.refl s name
  rw [h] at hstay
  unfold ifscanServeFailed IfEntry.refused
  rw [h]
  dsimp only
  cases e.state with
  | segment => exact Moves.writes_emits (fun _ => hsome) [⟨.listen, name⟩]
  | hold => exact Moves.writes fun _ => hsome
  | down => exact hstay
  | linked => exact hstay

/-! ## What the events say -/

/-- What is open on the interface `n` after the events `es`. -/
def openAfter (n : IfName) (es : List IfEvent) (h : IfHeld) : IfHeld :=
  es.foldl (fun h e => if e.name = n then e.verb.take h else h) h

/-- Events of another interface change nothing. -/
theorem openAfter_own (n name : IfName) (vs : List IfVerb) (h : IfHeld) :
    openAfter n (vs.map (IfEvent.mk · name)) h = if n = name then vs.foldl IfVerb.take h else h := by
  induction vs generalizing h with
  | nil => split_ifs <;> rfl
  | cons v vs ih =>
    show openAfter n (vs.map (IfEvent.mk · name)) (if name = n then v.take h else h) = _
    rw [ih]
    by_cases hn : n = name
    · rw [if_pos hn, if_pos hn, if_pos hn.symm]
      rfl
    · rw [if_neg hn, if_neg hn, if_neg (Ne.symm hn)]

/-- Drops, of as many interfaces as there are. -/
theorem openAfter_drops (n : IfName) (names : List IfName) (h : IfHeld) :
    openAfter n (names.map (IfEvent.mk .drop)) h = if n ∈ names then .nothing else h := by
  induction names generalizing h with
  | nil => rfl
  | cons name names ih =>
    show openAfter n (names.map (IfEvent.mk .drop)) (if name = n then .nothing else h) = _
    rw [ih]
    by_cases hn : n ∈ names
    · rw [if_pos hn, if_pos (List.mem_cons_of_mem name hn)]
    · rw [if_neg hn]
      by_cases heq : n = name
      · rw [if_pos heq.symm, if_pos (by rw [heq]; exact List.mem_cons_self)]
      · rw [if_neg (Ne.symm heq), if_neg (by simp [heq, hn])]

/-- The call emits `es`, and these take what was open to what is to be open. -/
structure Reported (held : IfName → IfHeld) (s s' : IfScan) (es : List IfEvent) : Prop where
  held : ∀ n, heldFor (s'.find n) = openAfter n es (held n)
  ring : s'.ring = s.ring.pushAll es
  kept : s.ring.items.length + es.length < ifscanEvents → s'.droppedEv = s.droppedEv
  few : es.length ≤ ifscanMax
  alone : ∀ e ∈ es, e.verb = .serve → es = [e]

/-- What is to be open by the table. -/
def IfScan.wants (s : IfScan) (n : IfName) : IfHeld := heldFor (s.find n)

theorem Reported.nothing (s : IfScan) : Reported s.wants s s [] :=
  ⟨fun _ => rfl, rfl, fun _ => rfl, Nat.zero_le _, List.forall_mem_nil _⟩

/-- The events of one interface. -/
theorem Moves.reported {o : Option IfEntry} {vs : List IfVerb} {held : IfName → IfHeld}
    (h : Moves s s' name o (vs.map (IfEvent.mk · name))) (hheld : ∀ n ≠ name, held n = s.wants n)
    (hfold : vs.foldl IfVerb.take (held name) = heldFor o) (hfew : vs.length ≤ 2)
    (halone : .serve ∈ vs → vs = [.serve]) : Reported held s s' (vs.map (IfEvent.mk · name)) where
  held n := by
    rw [h.find, openAfter_own]
    split_ifs with hn
    · rw [hn, hfold]
    · exact (hheld n hn).symm
  ring := h.ring
  kept := h.kept
  few := by
    rw [List.length_map]
    exact hfew.trans (by decide)
  alone := by
    intro e he hserve
    obtain ⟨v, hv, rfl⟩ := List.mem_map.mp he
    obtain rfl : v = .serve := hserve
    rw [halone hv]
    rfl

/-- An entry that leaves the table gives back what is open for it. -/
theorem leaves_fold (st : IfState) : st.leaves.foldl IfVerb.take st.held = .nothing := by
  cases st <;> rfl

theorem leaves_quiet (st : IfState) : st.leaves.length ≤ 1 ∧ .serve ∉ st.leaves := by
  cases st <;> decide

/-- A carrier that comes or goes is reported as what it makes of the entry. -/
theorem carrier_fold (e : IfEntry) (up : Bool) (now : UInt64) :
    (e.carrier up now).2.foldl IfVerb.take e.state.held = (e.carrier up now).1.state.held := by
  unfold IfEntry.carrier
  cases hst : e.state <;> cases up <;> first | rfl | (dsimp only; rw [hst]; rfl)

theorem carrier_quiet (e : IfEntry) (up : Bool) (now : UInt64) :
    (e.carrier up now).2.length ≤ 1 ∧ .serve ∉ (e.carrier up now).2 := by
  unfold IfEntry.carrier
  cases e.state <;> cases up <;> simp

theorem leave_reported (h : s.find name = some e) :
    Reported s.wants s (s.leave name e) (e.state.leaves.map (IfEvent.mk · name)) := by
  obtain ⟨hlen, hquiet⟩ := leaves_quiet e.state
  refine (leave_moves s name e).reported (fun _ _ => rfl) ?_ (by omega) fun hin => absurd hin hquiet
  rw [IfScan.wants, h]
  exact leaves_fold e.state

/-- What was open for an entry that leaves, and what is to be open for the one that takes its place. -/
theorem observed_fold (o : Option IfEntry) (room : Bool) (ifindex : ℤ) (ether up : Bool) (now : UInt64) :
    (observed o room ifindex ether up now).2.foldl IfVerb.take (heldFor o) =
        heldFor (observed o room ifindex ether up now).1 ∧
      (observed o room ifindex ether up now).2.length ≤ 2 ∧
      .serve ∉ (observed o room ifindex ether up now).2 := by
  have hleft : (o.elim [] fun e => e.state.leaves).foldl IfVerb.take (heldFor o) = .nothing ∧
      (o.elim [] fun e => e.state.leaves).length ≤ 1 ∧ .serve ∉ o.elim [] fun e => e.state.leaves := by
    cases o with
    | none => exact ⟨rfl, Nat.zero_le _, List.not_mem_nil⟩
    | some e => exact ⟨leaves_fold e.state, leaves_quiet e.state⟩
  have hnew := carrier_fold { ifindex } up now
  obtain ⟨hnewLen, hnewQuiet⟩ := carrier_quiet { ifindex } up now
  obtain ⟨hleftFold, hleftLen, hleftQuiet⟩ := hleft
  unfold observed
  cases ether with
  | false => exact ⟨hleftFold, by simp only [Bool.false_eq_true, if_false]; omega, hleftQuiet⟩
  | true =>
    rw [if_pos rfl]
    cases hsame : o.filter fun e => e.ifindex = ifindex with
    | some e =>
      obtain ⟨rfl, -⟩ := Option.filter_eq_some_iff.mp hsame
      obtain ⟨hlen, hquiet⟩ := carrier_quiet e up now
      exact ⟨carrier_fold e up now, Nat.le_trans hlen (by decide), hquiet⟩
    | none =>
      cases room with
      | false => exact ⟨hleftFold, by simp only [Bool.false_eq_true, if_false]; omega, hleftQuiet⟩
      | true =>
        simp only [if_true, List.foldl_append, hleftFold, List.length_append, List.mem_append, not_or]
        exact ⟨hnew, by omega, hleftQuiet, hnewQuiet⟩

theorem observe_reported (s : IfScan) (name : IfName) (ifindex : ℤ) (ether up : Bool) (now : UInt64) :
    ∃ es, Reported s.wants s (ifscanObserve s name ifindex ether up now) es := by
  by_cases hname : name = [] ∨ 16 ≤ name.length
  · refine ⟨[], ?_⟩
    rw [ifscanObserve, if_pos hname]
    exact Reported.nothing s
  · obtain ⟨hfold, hlen, hquiet⟩ := observed_fold (s.find name) (s.room name) ifindex ether up now
    exact ⟨_, (observe_moves hname).reported (fun _ _ => rfl) hfold hlen fun hin => absurd hin hquiet⟩

theorem gone_reported (s : IfScan) (name : IfName) (ifindex : ℤ) :
    ∃ es, Reported s.wants s (ifscanGone s name ifindex) es := by
  rcases gone_moves s name ifindex with hsame | ⟨e, hfind, hleave⟩
  · rw [hsame]
    exact ⟨[], Reported.nothing s⟩
  · rw [hleave]
    exact ⟨_, leave_reported hfind⟩

theorem heard_reported (s : IfScan) (name : IfName) (now : UInt64) :
    ∃ es, Reported s.wants s (ifscanHeard s name now) es := by
  rcases heard_moves s name now with hsame | ⟨e, hfind, -, -, hmoves⟩
  · rw [hsame]
    exact ⟨[], Reported.nothing s⟩
  · exact ⟨_, hmoves.reported (fun _ _ => rfl) rfl (by decide) fun _ => rfl⟩

theorem tick_find (s : IfScan) (now : UInt64) (n : IfName) :
    (ifscanTick s now).find n = (s.find n).map (IfEntry.tick now) := by
  unfold ifscanTick IfScan.find
  rw [IfScan.emitAll_ifs]
  exact SlotTable.find_mapAll s.ifs (IfEntry.tick now) n

theorem tick_held (e : IfEntry) (now : UInt64) :
    (e.tick now).state.held = if e.due now then .nothing else e.state.held := by
  unfold IfEntry.tick
  split_ifs <;> rfl

theorem tick_reported (s : IfScan) (now : UInt64) : ∃ es, Reported s.wants s (ifscanTick s now) es := by
  have hes : (s.ifs.entries.filter fun p => p.2.due now).map (fun p => IfEvent.mk .drop p.1) =
      ((s.ifs.entries.filter fun p => p.2.due now).map Prod.fst).map (IfEvent.mk .drop) := by
    rw [List.map_map]
    rfl
  refine ⟨_, ⟨?_, IfScan.emitAll_ring _ _,
    IfScan.emitAll_droppedEv { s with ifs := s.ifs.mapAll (IfEntry.tick now) } _, ?_, ?_⟩⟩
  · intro n
    have hmem : n ∈ (s.ifs.entries.filter fun p => p.2.due now).map Prod.fst ↔
        ∃ e, s.find n = some e ∧ e.due now = true := by
      simp only [List.mem_map, List.mem_filter, Prod.exists, exists_and_right, exists_eq_right,
        IfScan.find, SlotTable.find_eq_some_iff]
    rw [hes, openAfter_drops, tick_find, IfScan.wants]
    cases he : s.find n with
    | none =>
      rw [if_neg (by rw [hmem, he]; simp)]
      rfl
    | some e =>
      refine (tick_held e now).trans (if_congr ?_ rfl rfl)
      rw [hmem, he]
      simp
  · rw [List.length_map]
    exact (List.length_filter_le _ _).trans s.ifs.entries_length_le
  · intro e he hserve
    obtain ⟨p, -, rfl⟩ := List.mem_map.mp he
    cases hserve

/-- A refused listener leaves the sniffer, or nothing where there is no carrier. -/
theorem refused_fold (e : IfEntry) (now : UInt64) :
    (e.refused now).2.foldl IfVerb.take e.state.held.refuse = (e.refused now).1.state.held := by
  unfold IfEntry.refused
  cases hst : e.state <;> dsimp only <;> try rfl
  all_goals rw [hst]; rfl

theorem serveFailed_reported (s : IfScan) (name : IfName) (now : UInt64) :
    ∃ es, Reported (Function.update s.wants name (s.wants name).refuse) s (ifscanServeFailed s name now) es := by
  cases h : s.find name with
  | none =>
    have hsame : ifscanServeFailed s name now = s := by rw [ifscanServeFailed, h]
    have hwants : s.wants name = .nothing := by rw [IfScan.wants, h]; rfl
    rw [hsame, hwants]
    show ∃ es, Reported (Function.update s.wants name .nothing) s s es
    rw [← hwants, Function.update_eq_self]
    exact ⟨[], Reported.nothing s⟩
  | some e =>
    have hquiet : (e.refused now).2.length ≤ 1 ∧ .serve ∉ (e.refused now).2 := by
      unfold IfEntry.refused
      cases e.state <;> simp
    refine ⟨_, (serveFailed_moves h now).reported (fun n hn => Function.update_of_ne hn _ _) ?_ (by omega)
      fun hin => absurd hin hquiet.2⟩
    rw [Function.update_self, IfScan.wants, h]
    exact refused_fold e now

/-! ## The caller -/

/-- What the caller has open, once it has taken what is queued, is what the table says. -/
structure IfDaemon.Ok (d : IfDaemon) : Prop where
  held : ∀ n, openAfter n d.scan.ring.items (d.held n) = d.scan.wants n
  few : d.scan.ring.items.length ≤ ifscanMax
  alone : ∀ e ∈ d.scan.ring.items, e.verb = .serve → d.scan.ring.items = [e]
  kept : d.scan.droppedEv = 0

/-- The caller makes its calls when it has taken every event; it takes events at any time. -/
def IfDaemon.ready (d : IfDaemon) : IfInput → Bool
  | .next _ => true
  | _ => d.scan.ring.items.isEmpty

variable {d : IfDaemon}

theorem IfDaemon.Ok.held_of_drained (h : d.Ok) (hring : d.scan.ring.items = []) (n : IfName) :
    d.held n = d.scan.wants n := by
  have hheld := h.held n
  rw [hring] at hheld
  exact hheld

/-- A call that finds the ring empty. -/
theorem IfDaemon.Ok.call (h : d.Ok) (hring : d.scan.ring.items = []) {s' : IfScan}
    {held : IfName → IfHeld} {es : List IfEvent} (hcall : Reported held d.scan s' es) :
    IfDaemon.Ok { scan := s', held } := by
  have hfits : es.length ≤ ifscanEvents - 1 := hcall.few.trans (by decide)
  have hitems : s'.ring.items = es := by
    rw [hcall.ring, BoundedQueue.pushAll_items, hring, List.nil_append, List.take_of_length_le hfits]
  refine ⟨?_, ?_, ?_, ?_⟩
  · intro n
    show openAfter n s'.ring.items (held n) = s'.wants n
    rw [hitems, ← hcall.held]
    rfl
  · show s'.ring.items.length ≤ ifscanMax
    rw [hitems]
    exact hcall.few
  · show ∀ e ∈ s'.ring.items, e.verb = .serve → s'.ring.items = [e]
    rw [hitems]
    exact hcall.alone
  · refine (hcall.kept ?_).trans h.kept
    rw [hring]
    unfold ifscanEvents at hfits ⊢
    rw [List.length_nil]
    omega

theorem IfDaemon.Ok.ordinary (h : d.Ok) (hring : d.scan.ring.items = []) {s' : IfScan}
    (hcall : ∃ es, Reported d.scan.wants d.scan s' es) : IfDaemon.Ok { d with scan := s' } := by
  obtain ⟨es, hcall⟩ := hcall
  have hheld : d.held = d.scan.wants := funext (h.held_of_drained hring)
  have hnew := h.call hring hcall
  rw [← hheld] at hnew
  exact hnew

theorem IfDaemon.Ok.serveFailed (h : d.Ok) (hring : d.scan.ring.items = []) (name : IfName)
    (now : UInt64) : (d.serveFailed name now).Ok := by
  obtain ⟨es, hcall⟩ := serveFailed_reported d.scan name now
  have hheld : d.held = d.scan.wants := funext (h.held_of_drained hring)
  have hnew := h.call hring hcall
  rw [← hheld] at hnew
  exact hnew

/-- The caller has taken the oldest event. -/
def IfDaemon.taken (d : IfDaemon) (e : IfEvent) (ring : BoundedQueue IfEvent (ifscanEvents - 1)) :
    IfDaemon where
  scan := { d.scan with ring }
  held := Function.update d.held e.name (e.verb.take (d.held e.name))

/-- There is nothing to take; or an event is taken, and perhaps it is a SERVE that is refused. -/
theorem IfDaemon.next_cases (d : IfDaemon) (refusal : Option UInt64) :
    d.next refusal = (d, none) ∧ d.scan.ring.items = [] ∨
      ∃ e ring, d.scan.ring.items = e :: ring.items ∧
        (d.next refusal = (d.taken e ring, some e) ∧ (e.verb ≠ .serve ∨ refusal = none) ∨
          ∃ now, refusal = some now ∧ e.verb = .serve ∧
            d.next refusal = ((d.taken e ring).serveFailed e.name now, some e)) := by
  unfold IfDaemon.next ifscanNext
  cases hpop : d.scan.ring.pop with
  | none => exact .inl ⟨rfl, BoundedQueue.pop_eq_none.mp hpop⟩
  | some p =>
    obtain ⟨⟨verb, name⟩, ring⟩ := p
    refine .inr ⟨⟨verb, name⟩, ring, BoundedQueue.pop_eq_some hpop, ?_⟩
    cases refusal with
    | none => cases verb <;> exact .inl ⟨rfl, .inr rfl⟩
    | some now =>
      cases verb with
      | serve => exact .inr ⟨now, rfl, rfl, rfl⟩
      | listen | unlisten | drop | kept => exact .inl ⟨rfl, .inl nofun⟩

theorem IfDaemon.Ok.taken (h : d.Ok) {e : IfEvent} {ring : BoundedQueue IfEvent (ifscanEvents - 1)}
    (hitems : d.scan.ring.items = e :: ring.items) : (d.taken e ring).Ok := by
  have hfew := h.few
  rw [hitems, List.length_cons] at hfew
  refine ⟨?_, Nat.le_of_succ_le hfew, ?_, h.kept⟩
  · intro n
    have hheld := h.held n
    rw [hitems] at hheld
    refine Eq.trans ?_ hheld
    show openAfter n ring.items (Function.update d.held e.name (e.verb.take (d.held e.name)) n) =
      openAfter n ring.items (if e.name = n then e.verb.take (d.held n) else d.held n)
    by_cases hn : e.name = n
    · subst hn
      rw [Function.update_self, if_pos rfl]
    · rw [Function.update_of_ne (Ne.symm hn), if_neg hn]
  · intro e' he' hserve
    have hone := h.alone e' (by rw [hitems]; exact List.mem_cons_of_mem e he') hserve
    rw [hitems] at hone
    obtain ⟨-, hnil⟩ := List.cons.inj hone
    have hin : e' ∈ ring.items := he'
    rw [hnil] at hin
    cases hin

/-- One step keeps the caller and the table together. -/
theorem IfDaemon.Ok.step (h : d.Ok) {i : IfInput} (hready : d.ready i = true) : (ifStep d i).1.Ok := by
  have hring : (∀ r, i ≠ .next r) → d.scan.ring.items = [] := by
    intro hnext
    cases i with
    | next r => exact absurd rfl (hnext r)
    | observe | gone | heard | tick | serveFailed => exact List.isEmpty_iff.mp hready
  cases i with
  | observe name ifindex ether up now =>
    exact h.ordinary (hring nofun) (observe_reported d.scan name ifindex ether up now)
  | gone name ifindex now => exact h.ordinary (hring nofun) (gone_reported d.scan name ifindex)
  | heard name now => exact h.ordinary (hring nofun) (heard_reported d.scan name now)
  | tick now => exact h.ordinary (hring nofun) (tick_reported d.scan now)
  | serveFailed name now => exact h.serveFailed (hring nofun) name now
  | next refusal =>
    show (d.next refusal).1.Ok
    rcases d.next_cases refusal with ⟨hsame, -⟩ | ⟨e, ring, hitems, ⟨htake, -⟩ | ⟨now, -, hserve, hrefuse⟩⟩
    · rw [hsame]
      exact h
    · rw [htake]
      exact h.taken hitems
    · rw [hrefuse]
      refine (h.taken hitems).serveFailed ?_ e.name now
      -- A SERVE is queued by itself, so the ring is empty behind it.
      have hone := h.alone e (by rw [hitems]; exact List.mem_cons_self) hserve
      rw [hitems] at hone
      exact (List.cons.inj hone).2

/-! ## The retry window -/

/-- The time of a call. -/
def IfInput.time : IfInput → Option UInt64
  | .observe _ _ _ _ now | .gone _ _ now | .heard _ now | .tick now | .serveFailed _ now => some now
  | .next refusal => refusal

/-- The SERVE that the caller answers with `reac_ifscan_serve_failed` in this step, and when. -/
def IfDaemon.refusal (d : IfDaemon) : IfInput → Option (IfName × UInt64)
  | .serveFailed name now => if d.held name = .serving then some (name, now) else none
  | .next (some now) =>
    match d.scan.ring.items with
    | ⟨.serve, name⟩ :: _ => some (name, now)
    | _ => none
  | _ => none

/-- The entry of `name` is there under this index, and its carrier is not down. -/
def IfDaemon.keeps (d : IfDaemon) (name : IfName) (ifindex : ℤ) : Prop :=
  ∃ e, d.scan.find name = some e ∧ e.ifindex = ifindex ∧ e.state ≠ .down

/-- A listener that was refused waits for the end of the retry window, if the carrier is there. -/
theorem serveFailed_waits (hserving : s.wants name = .serving) {ifindex : ℤ}
    (hkeeps : ∃ e, (ifscanServeFailed s name now).find name = some e ∧ e.ifindex = ifindex ∧ e.state ≠ .down) :
    ∃ e, (ifscanServeFailed s name now).find name = some e ∧ e.ifindex = ifindex ∧ e.state = .linked ∧
      e.retryAfterNs = now + ifscanRetryNs := by
  cases h : s.find name with
  | none =>
    rw [IfScan.wants, h] at hserving
    cases hserving
  | some e =>
    rw [IfScan.wants, h] at hserving
    have hheld : e.state.held = .serving := hserving
    obtain ⟨e', hfind, hix, hup⟩ := hkeeps
    refine ⟨e', hfind, hix, ?_⟩
    rw [(serveFailed_moves h now).find, if_pos rfl] at hfind
    obtain rfl := Option.some.inj hfind
    revert hup
    unfold IfEntry.refused
    cases hst : e.state with
    | segment => exact fun _ => ⟨rfl, rfl⟩
    | hold => exact fun hup => absurd rfl hup
    | down | linked =>
      rw [hst] at hheld
      cases hheld

theorem serveFailed_linked (h : s.find name = some e) (hst : e.state = .linked) (n : IfName) (now : UInt64) :
    (ifscanServeFailed s n now).find name = some e := by
  by_cases hn : n = name
  · subst hn
    rw [(serveFailed_moves h now).find, if_pos rfl, IfEntry.refused, hst]
  · cases hfind : s.find n with
    | none => rw [ifscanServeFailed, hfind, h]
    | some e' => rw [(serveFailed_moves hfind now).find, if_neg (Ne.symm hn), h]

theorem observe_linked (h : s.find name = some e) (hst : e.state = .linked) {n : IfName} {ifindex : ℤ}
    {ether up : Bool} {e' : IfEntry}
    (hfind : (ifscanObserve s n ifindex ether up now).find name = some e')
    (hix : e'.ifindex = e.ifindex) (hup : e'.state ≠ .down) : e' = e := by
  by_cases hname : n = [] ∨ 16 ≤ n.length
  · rw [ifscanObserve, if_pos hname, h] at hfind
    exact (Option.some.inj hfind).symm
  · rw [(observe_moves hname).find] at hfind
    split_ifs at hfind with hn
    · subst hn
      rw [h] at hfind
      unfold observed at hfind
      cases ether with
      | false => cases hfind
      | true =>
        by_cases hsame : e.ifindex = ifindex
        · simp only [if_true, Option.filter_some, hsame, decide_true] at hfind
          obtain rfl := Option.some.inj hfind
          cases up with
          | true =>
            unfold IfEntry.carrier
            rw [hst]
          | false =>
            unfold IfEntry.carrier at hup
            rw [hst] at hup
            exact absurd rfl hup
        · simp only [if_true, Option.filter_some, hsame, decide_false, Bool.false_eq_true, if_false] at hfind
          split_ifs at hfind
          obtain rfl := Option.some.inj hfind
          have hnew : (IfEntry.carrier { ifindex } up now).1.ifindex = ifindex := by cases up <;> rfl
          exact absurd (hix.symm.trans hnew) hsame
    · rw [h] at hfind
      exact (Option.some.inj hfind).symm

/-- An interface that is linked stays so with its retry window, until the window is over. -/
theorem step_linked (h : d.scan.find name = some e) (hst : e.state = .linked) {i : IfInput} {e' : IfEntry}
    (hfind : (ifStep d i).1.scan.find name = some e') (hix : e'.ifindex = e.ifindex)
    (hup : e'.state ≠ .down) :
    e' = e ∨ ∃ now, i = .heard name now ∧ (e.retryAfterNs = 0 ∨ e.retryAfterNs ≤ now) := by
  have hsame : ∀ {o}, o = some e → o = some e' → e' = e := by
    rintro o rfl ho
    exact (Option.some.inj ho).symm
  cases i with
  | observe n ifindex ether up now => exact .inl (observe_linked h hst hfind hix hup)
  | gone n ifindex now =>
    have hfind : (ifscanGone d.scan n ifindex).find name = some e' := hfind
    rcases gone_moves d.scan n ifindex with hstay | ⟨e₀, -, hleave⟩
    · rw [hstay] at hfind
      exact .inl (hsame h hfind)
    · rw [hleave, (leave_moves d.scan n e₀).find] at hfind
      split_ifs at hfind
      exact .inl (hsame h hfind)
  | heard n now =>
    have hfind : (ifscanHeard d.scan n now).find name = some e' := hfind
    rcases heard_moves d.scan n now with hstay | ⟨e₀, he₀, -, hretry, hmoves⟩
    · rw [hstay] at hfind
      exact .inl (hsame h hfind)
    · by_cases hn : name = n
      · subst hn
        rw [h] at he₀
        obtain rfl := Option.some.inj he₀
        exact .inr ⟨now, rfl, hretry⟩
      · rw [hmoves.find, if_neg hn] at hfind
        exact .inl (hsame h hfind)
  | tick now =>
    have hfind : (ifscanTick d.scan now).find name = some e' := hfind
    rw [tick_find, h, Option.map_some, IfEntry.tick, if_neg (by simp [IfEntry.due, hst])] at hfind
    exact .inl (hsame rfl hfind)
  | serveFailed n now => exact .inl (hsame (serveFailed_linked h hst n now) hfind)
  | next refusal =>
    have hfind : (d.next refusal).1.scan.find name = some e' := hfind
    rcases d.next_cases refusal with ⟨hstay, -⟩ | ⟨ev, ring, -, ⟨htake, -⟩ | ⟨now, -, -, hrefuse⟩⟩
    · rw [hstay] at hfind
      exact .inl (hsame h hfind)
    · rw [htake] at hfind
      exact .inl (hsame (show (d.taken ev ring).scan.find name = some e from h) hfind)
    · rw [hrefuse] at hfind
      have hlinked := serveFailed_linked (s := (d.taken ev ring).scan) h hst ev.name now
      exact .inl (hsame hlinked hfind)

/-- After a refusal the interface waits for the end of the retry window, as long as its entry stays and
its carrier is not down; or the window is over, and then a frame was heard behind its end. -/
def Waiting (log : List IfLogEntry) (d : IfDaemon) : Prop :=
  ∀ log₁ r log₂ name ifindex t, log = log₁ ++ r :: log₂ → r.pre.refusal r.input = some (name, t) →
    (∀ l ∈ r :: log₂, l.post.keeps name ifindex) →
    (∃ e, d.scan.find name = some e ∧ e.ifindex = ifindex ∧ e.state = .linked ∧
      e.retryAfterNs = t + ifscanRetryNs) ∨
    ∃ l ∈ log₂, ∃ now, l.input = .heard name now ∧ (t + ifscanRetryNs = 0 ∨ t + ifscanRetryNs ≤ now)

/-- A step that refuses a SERVE starts the wait. -/
theorem refusal_waits (h : d.Ok) {i : IfInput} (hready : d.ready i = true) {ifindex : ℤ}
    (href : d.refusal i = some (name, now)) (hkeeps : (ifStep d i).1.keeps name ifindex) :
    ∃ e, (ifStep d i).1.scan.find name = some e ∧ e.ifindex = ifindex ∧ e.state = .linked ∧
      e.retryAfterNs = now + ifscanRetryNs := by
  cases i with
  | observe | gone | heard | tick => cases href
  | serveFailed n t =>
    unfold IfDaemon.refusal at href
    dsimp only at href
    split_ifs at href with hserving
    obtain ⟨rfl, rfl⟩ := Prod.mk.inj (Option.some.inj href)
    rw [h.held_of_drained (List.isEmpty_iff.mp hready)] at hserving
    exact serveFailed_waits hserving hkeeps
  | next refusal =>
    have hkeeps : (d.next refusal).1.keeps name ifindex := hkeeps
    show ∃ e, (d.next refusal).1.scan.find name = some e ∧ _
    rcases d.next_cases refusal with ⟨-, hempty⟩ | ⟨e, ring, hitems, hcase⟩
    · cases refusal <;> simp [IfDaemon.refusal, hempty] at href
    · rcases hcase with ⟨-, hno⟩ | ⟨t, rfl, hserve, hrefuse⟩
      · obtain ⟨verb, n⟩ := e
        rcases hno with hverb | rfl
        · cases refusal <;> cases verb <;> simp [IfDaemon.refusal, hitems] at href hverb
        · cases href
      · obtain ⟨verb, n⟩ := e
        obtain rfl : verb = .serve := hserve
        have hown : (n, t) = (name, now) := by simpa [IfDaemon.refusal, hitems] using href
        obtain ⟨rfl, rfl⟩ := Prod.mk.inj hown
        rw [hrefuse] at hkeeps ⊢
        have htaken := h.taken hitems
        have hone := h.alone _ (by rw [hitems]; exact List.mem_cons_self) rfl
        rw [hitems] at hone
        have hring : (d.taken ⟨.serve, n⟩ ring).scan.ring.items = [] := (List.cons.inj hone).2
        have hserving := htaken.held_of_drained hring n
        rw [show (d.taken ⟨.serve, n⟩ ring).held n = .serving from Function.update_self ..] at hserving
        exact serveFailed_waits hserving.symm hkeeps

theorem Waiting.step {log : List IfLogEntry} (h : Waiting log d) (hok : d.Ok) {i : IfInput}
    (hready : d.ready i = true) : Waiting (log ++ [ifMachine.event d i]) (ifStep d i).1 := by
  intro log₁ r log₂ name ifindex t hlog href hkeeps
  rcases List.eq_nil_or_concat log₂ with rfl | ⟨log₃, last, rfl⟩
  · obtain ⟨-, hlast⟩ := List.append_inj' hlog rfl
    obtain rfl : ifMachine.event d i = r := (List.cons.inj hlast).1
    exact .inl (refusal_waits hok hready href (hkeeps _ List.mem_cons_self))
  · rw [List.concat_eq_append, ← List.cons_append, ← List.append_assoc] at hlog
    obtain ⟨rfl, hlast⟩ := List.append_inj' hlog rfl
    obtain rfl : ifMachine.event d i = last := (List.cons.inj hlast).1
    rw [List.concat_eq_append] at hkeeps ⊢
    have hbefore : ∀ l ∈ r :: log₃, l.post.keeps name ifindex := by
      intro l hl
      exact hkeeps l (by rw [← List.cons_append]; exact List.mem_append_left _ hl)
    obtain ⟨e', hfind', hix', hup'⟩ : (ifStep d i).1.keeps name ifindex := hkeeps (ifMachine.event d i) (by simp)
    rcases h log₁ r log₃ name ifindex t rfl href hbefore with ⟨e, hfind, hix, hst, hretry⟩ | ⟨l, hl, hover⟩
    · rcases step_linked hfind hst hfind' (hix'.trans hix.symm) hup' with rfl | ⟨now, rfl, hlate⟩
      · exact .inl ⟨e', hfind', hix, hst, hretry⟩
      · rw [hretry] at hlate
        exact .inr ⟨ifMachine.event d (.heard name now), by simp, now, rfl, hlate⟩
    · exact .inr ⟨l, List.mem_append_left _ hl, hover⟩

/-- After a step: the names of the table are distinct, no event was dropped, what the caller has open
once it has taken every event is what the table says, and a SERVE comes no earlier than the retry window
after a refusal on the same entry, whose carrier was not down since. -/
structure Described (log : List IfLogEntry) (e : IfLogEntry) : Prop where
  unique : (e.post.scan.ifs.entries.map Prod.fst).Nodup
  kept : e.post.scan.droppedEv = 0
  folds : e.post.scan.ring.items = [] → ∀ name, e.post.held name = heldFor (e.post.scan.find name)
  retry : ∀ log₁ r log₂ name ifindex t now, log = log₁ ++ r :: log₂ →
    r.pre.refusal r.input = some (name, t) → (∀ l ∈ r :: log₂, l.post.keeps name ifindex) →
    e.input = .heard name now → ⟨.serve, name⟩ ∈ e.post.scan.ring.items →
    t.toNat + ifscanRetryNs.toNat ≤ now.toNat

/-- A refusal does not come so late that the end of its retry window is out of range. -/
def IfDaemon.inRange (d : IfDaemon) (i : IfInput) : Bool :=
  (d.refusal i).all fun p => p.2.toNat + ifscanRetryNs.toNat < UInt64.size

theorem daemonOk_init : IfDaemon.Ok {} :=
  ⟨fun _ => rfl, Nat.zero_le _, List.forall_mem_nil _, rfl⟩

/-- A SERVE is queued where an interface is linked and its retry window is over. -/
theorem heard_serves (hring : d.scan.ring.items = [])
    (hserve : ⟨.serve, name⟩ ∈ (ifscanHeard d.scan name now).ring.items) :
    ∃ e, d.scan.find name = some e ∧ (e.retryAfterNs = 0 ∨ e.retryAfterNs ≤ now) := by
  rcases heard_moves d.scan name now with hsame | ⟨e, hfind, -, hretry, -⟩
  · rw [hsame, hring] at hserve
    cases hserve
  · exact ⟨e, hfind, hretry⟩

/-- In every run in which the caller takes its events and time does not run backwards, the events
describe the table. -/
theorem events_describe_table (is : List IfInput)
    (hready : ∀ e ∈ ifMachine.trace {} is, e.pre.ready e.input = true)
    (htime : (is.filterMap IfInput.time).Pairwise (· ≤ ·))
    (hrange : ∀ e ∈ ifMachine.trace {} is, e.pre.inRange e.input = true) :
    ∀ log e, ifMachine.StepOf {} is log e → Described log e := by
  intro log e he
  obtain ⟨⟨hok, hwait⟩, heq⟩ := ifMachine.trace_invariant_at (H := fun log d => d.Ok ∧ Waiting log d)
    (L := fun _ e => e.pre.ready e.input = true)
    ⟨daemonOk_init, fun log₁ r log₂ _ _ _ hlog => by cases log₁ <;> cases hlog⟩
    (fun log d i h hL => ⟨h.1.step hL, h.2.step h.1 hL⟩) (fun log e he => hready e (he.mem_trace _)) he
  have hstep := hready e (he.mem_trace _)
  have hpost : e.post.Ok := by
    rw [heq]
    exact hok.step hstep
  refine ⟨e.post.scan.ifs.nodup_keys, hpost.kept, hpost.held_of_drained, ?_⟩
  intro log₁ r log₂ name ifindex t now hlog href hkeeps hinput hserve
  rw [hinput] at hstep
  have hring : e.pre.scan.ring.items = [] := List.isEmpty_iff.mp hstep
  have hlater : ∀ l ∈ log, ∀ t', l.input.time = some t' → t' ≤ now := by
    intro l hl t' ht'
    rw [List.pairwise_filterMap] at htime
    exact Machine.StepOf.of_pairwise ifMachine htime he hl t' ht' now (by rw [hinput]; rfl)
  have hfit : t.toNat + ifscanRetryNs.toNat < UInt64.size := by
    have hmem : r ∈ ifMachine.trace {} is := by
      obtain ⟨rest, htrace⟩ := he
      rw [htrace, hlog]
      simp
    have hr := hrange r hmem
    rw [IfDaemon.inRange, href, Option.all_some, decide_eq_true_iff] at hr
    exact hr
  have hsum : (t + ifscanRetryNs).toNat = t.toNat + ifscanRetryNs.toNat := by
    rw [UInt64.toNat_add, Nat.mod_eq_of_lt hfit]
  have hpositive : t + ifscanRetryNs ≠ 0 := by
    intro hzero
    rw [hzero] at hsum
    unfold ifscanRetryNs at hsum
    simp at hsum
  rw [← hsum, ← UInt64.le_iff_toNat_le]
  rcases hwait log₁ r log₂ name ifindex t hlog href hkeeps with ⟨e₁, hfind, -, -, hretry⟩ | ⟨l, hl, t', ht', hlate⟩
  · rw [heq, hinput] at hserve
    obtain ⟨e₀, hfind₀, hlate⟩ := heard_serves hring hserve
    rw [hfind] at hfind₀
    obtain rfl := Option.some.inj hfind₀
    rw [hretry] at hlate
    exact hlate.resolve_left hpositive
  · have hle : t' ≤ now := hlater l (by rw [hlog]; simp [hl]) t' (by rw [ht']; rfl)
    exact UInt64.le_trans (hlate.resolve_left hpositive) hle

/-- The name `lan0`. -/
def lan0 : IfName := [0x6c, 0x61, 0x6e, 0x30]

/-- A frame is heard at the time `t`, and the listener cannot be opened. -/
def refusedRun (t : UInt64) : List IfInput :=
  [.observe lan0 5 true true 0, .next none, .heard lan0 t, .next (some t), .next none]

/-- Five seconds after it was refused the interface is served again. -/
theorem events_describe_retry :
    Described (ifMachine.trace {} (refusedRun 7))
      (ifMachine.event (ifMachine.run {} (refusedRun 7)) (.heard lan0 5000000007)) :=
  events_describe_table (refusedRun 7 ++ [.heard lan0 5000000007]) (by decide +kernel) (by decide +kernel)
    (by decide +kernel) _ _ (ifMachine.stepOf_last ..)

/-- The last nanosecond of the clock. -/
def lastNs : UInt64 := 18446744073709551615

/-- A frame that is heard right after a refusal, in the last nanosecond of the clock. -/
def wrappedRun : List IfInput := refusedRun lastNs ++ [.heard lan0 lastNs]

/-- There the end of the retry window wraps, and the window is over at once. -/
theorem wrapped_retry_serves_at_once :
    (∀ e ∈ ifMachine.trace {} wrappedRun, e.pre.ready e.input = true) ∧
      (wrappedRun.filterMap IfInput.time).Pairwise (· ≤ ·) ∧
      ¬ ∀ log e, ifMachine.StepOf {} wrappedRun log e → Described log e := by
  refine ⟨by decide +kernel, by decide +kernel, ?_⟩
  intro hall
  have hlast := (hall _ _ (ifMachine.stepOf_last {} (refusedRun lastNs) (.heard lan0 lastNs))).retry
    (ifMachine.trace {} ((refusedRun lastNs).take 3))
    (ifMachine.event (ifMachine.run {} ((refusedRun lastNs).take 3)) (.next (some lastNs)))
    [ifMachine.event (ifMachine.run {} ((refusedRun lastNs).take 4)) (.next none)] lan0 5 lastNs lastNs
    rfl (by decide +kernel) ?_ rfl (by decide +kernel)
  · revert hlast
    decide
  · intro l hl
    refine ⟨{ ifindex := 5, state := .linked, retryAfterNs := 4999999999 }, ?_, rfl, nofun⟩
    rcases List.mem_pair.mp hl with rfl | rfl <;> decide +kernel

end Libreac
