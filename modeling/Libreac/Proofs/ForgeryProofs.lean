import Libreac.Proofs.HuntProofs

/-!
# Proofs: a forged burst and the hunt

Two hunts hear the same frames, and the second hears a few more from an address of its own. Their
tables differ by one entry (`Apart`), which is a master's, has not streamed and is quiet once the
burst is over. What the second hunt still remembers of the burst is the peer it locked to, the opening
of its window, whom it named as the newest master and a verdict it held meanwhile. Where none of the
four decides, both runs reach the same verdict.
-/

namespace Libreac

open Reactive (Event)
open Reactive.Machine (Offered)

/-! ## Tables that differ by one peer -/

/-- The second table is the first one with at most an entry for `x` added. -/
structure Apart (x : Mac) (t u : DiscoTable) : Prop where
  same : ∀ m, m ≠ x → u.peers.find m = t.peers.find m
  absent : t.peers.find x = none

namespace Apart

variable {x : Mac} {t u : DiscoTable}

theorem age (h : Apart x t u) (now : ℕ) : Apart x (tableAge t now) (tableAge u now) := by
  constructor
  · intro m hm
    rw [tableAge_find, tableAge_find, h.same m hm]
  · rw [tableAge_find, h.absent]
    rfl

/-- Both tables fold a sighting of another peer in alike. -/
theorem observe (h : Apart x t u) {s : Sighting} (hs : s.mac ≠ x) (ht : t.peers.full = false)
    (hu : u.peers.full = false) (now : ℕ) :
    Apart x (tableObserve t s false now).1 (tableObserve u s false now).1 := by
  have hsame := h.same s.mac hs
  constructor
  · intro m hm
    cases hfind : t.peers.find s.mac with
    | some e =>
      rw [hfind] at hsame
      rw [(tableObserve_known hfind false now).2, (tableObserve_known hsame false now).2, h.same m hm]
    | none =>
      rw [hfind] at hsame
      rw [(tableObserve_new hfind ht false now).2, (tableObserve_new hsame hu false now).2, h.same m hm]
  · rw [tableObserve_find_other hs.symm, h.absent]

/-- A sighting of `x` in the second table only. -/
theorem observe_right (h : Apart x t u) {s : Sighting} (hs : s.mac = x) (now : ℕ) :
    Apart x t (tableObserve u s false now).1 := by
  refine ⟨?_, h.absent⟩
  intro m hm
  rw [tableObserve_find_other (by rw [hs]; exact hm), h.same m hm]

/-- What the entry of `x` does not satisfy is found in both tables or in neither. -/
theorem any_eq (h : Apart x t u) {f : DiscoEntry → Bool}
    (hx : ∀ p, u.peers.find x = some p → f p = false) :
    u.peers.entries.any f = t.peers.entries.any f := by
  rw [Bool.eq_iff_iff, List.any_eq_true, List.any_eq_true]
  constructor
  · rintro ⟨p, hp, hf⟩
    have hfind := (Roster.find_eq_some_iff u.peers p.mac p).mpr ⟨hp, rfl⟩
    by_cases hmac : p.mac = x
    · rw [hmac] at hfind
      rw [hx p hfind] at hf
      cases hf
    · rw [h.same _ hmac] at hfind
      exact ⟨p, Roster.mem_of_find hfind, hf⟩
  · rintro ⟨p, hp, hf⟩
    have hfind := (Roster.find_eq_some_iff t.peers p.mac p).mpr ⟨hp, rfl⟩
    by_cases hmac : p.mac = x
    · rw [hmac, h.absent] at hfind
      cases hfind
    · rw [← h.same _ hmac] at hfind
      exact ⟨p, Roster.mem_of_find hfind, hf⟩

end Apart

/-! ## The burst -/

section Burst

/-- A frame of `x` that passes the checksum and speaks as a master. -/
def IsForgery (x : Mac) (bytes : List UInt8) : Prop :=
  (ctrlParse (cleanFrame bytes)).kind ≠ .none ∧ (ctrlParse (cleanFrame bytes)).src = x ∧
    checksumVerify (cleanFrame bytes) = true ∧ roleOf (ctrlParse (cleanFrame bytes)) = .master

/-- The input is one that only the second run takes. -/
def isExtra : Offered HuntInput → Bool
  | .both _ => false
  | .extra _ => true

/-- The extra frames are a forged burst of `x`, which is not heard otherwise, on a segment that is
not pinned or pinned to be master. -/
structure ForgedBurst (x : Mac) (is : List (Offered HuntInput)) : Prop where
  forged : ∀ i, .extra i ∈ is → ∃ bytes now, i = .observe bytes now ∧ IsForgery x bytes
  few : is.countP isExtra < huntRivalFrames
  unheard : ∀ bytes now, .both (.observe bytes now) ∈ is →
    (ctrlParse (cleanFrame bytes)).kind ≠ .none → (ctrlParse (cleanFrame bytes)).src ≠ x
  pins : ∀ role, .both (.pin role) ∈ is → role = .master

/-- The burst has been quiet for longer than the limit. -/
def BurstOver (is : List (Offered HuntInput)) (now : ℕ) : Prop :=
  ∀ i t, .extra i ∈ is → i.time? = some t → t + huntRivalQuietNs < now

/-- The time of a step of both runs. -/
def stepTime? : Offered HuntInput → Option ℕ
  | .both (.step now) => some now
  | _ => none

/-- The time of the last step both runs have taken. -/
def lastStep? (log : List (Event (Hunt × Hunt) (Offered HuntInput) Unit)) : Option ℕ :=
  log.reverse.findSome? fun l => stepTime? l.input

theorem lastStep?_concat (log : List (Event (Hunt × Hunt) (Offered HuntInput) Unit))
    (e : Event (Hunt × Hunt) (Offered HuntInput) Unit) :
    lastStep? (log ++ [e]) = (stepTime? e.input).or (lastStep? log) := by
  unfold lastStep?
  rw [List.reverse_append, List.reverse_singleton, List.singleton_append, List.findSome?_cons]
  cases stepTime? e.input <;> rfl

/-- The newest master is the same in both runs, or it is `x` in the second, which hides nobody the
first would heed and does not hold the verdict as a master that has yet to announce itself. -/
def SameRival (x : Mac) (s : Hunt × Hunt) (now : ℕ) : Prop :=
  s.2.rival now = s.1.rival now ∨
    ∃ p, s.2.rival now = some p ∧ p.mac = x ∧ s.1.heeds now = .ignore ∧
      (s.1.pin = none → rivalKindOf p ≠ .pending)

/-- Where the window decides, it is over in both runs or in neither. -/
def SameWindow (s : Hunt × Hunt) (now : ℕ) : Prop :=
  s.1.pin = none → s.1.silenceProven = false → boxPresent (tableAge s.1.table now) now = true →
    (huntWindowNs ≤ elapsedNs now s.1.opened ↔ huntWindowNs ≤ elapsedNs now s.2.opened)

/-- The condition on one call: what is heard is heard alike, and a step after the burst finds the
same rival, the same side of the window and, if it holds a verdict over from before, the same one. -/
def Unswayed (x : Mac) (is : List (Offered HuntInput))
    (log : List (Event (Hunt × Hunt) (Offered HuntInput) Unit))
    (e : Event (Hunt × Hunt) (Offered HuntInput) Unit) : Prop :=
  match e.input with
  | .both (.observe bytes _) => (e.pre.2.sights bytes).2 = (e.pre.1.sights bytes).2
  | .both (.step now) =>
    BurstOver is now → SameRival x e.pre now ∧ SameWindow e.pre now ∧
      (e.pre.1.heeds now = .hold → (∃ t, lastStep? log = some t ∧ BurstOver is t) ∨
        e.pre.2.verdict = e.pre.1.verdict)
  | _ => True

/-- What the two runs have in common. -/
structure Alike (x : Mac) (is : List (Offered HuntInput))
    (log : List (Event (Hunt × Hunt) (Offered HuntInput) Unit)) (s : Hunt × Hunt) : Prop where
  apart : Apart x s.1.table s.2.table
  master : ∀ p, s.2.table.peers.find x = some p → p.role = .master
  frames : ∀ p, s.2.table.peers.find x = some p →
    p.frames ≤ (log.map Event.input).countP isExtra
  last : ∀ p, s.2.table.peers.find x = some p → ∃ i, .extra i ∈ is ∧ i.time? = some p.lastSeen
  pin : s.2.pin = s.1.pin
  pinned : s.1.pin = none ∨ s.1.pin = some .master
  ours : s.2.ourMac = s.1.ourMac
  silence : s.2.silenceProven = s.1.silenceProven
  settled : ∀ t, lastStep? log = some t → BurstOver is t → s.2.verdict = s.1.verdict

/-- A sighting says what the classifier reads in the frame. -/
theorem sights_eq {h : Hunt} {bytes : List UInt8} {s : Sighting} (hs : (h.sights bytes).2 = some s) :
    s = sightingOf (ctrlParse (cleanFrame bytes)) (cleanFrame bytes) ∧
      (ctrlParse (cleanFrame bytes)).kind ≠ .none := by
  unfold Hunt.sights discoClassifyOnSegment classifyCore at hs
  dsimp only at hs
  split_ifs at hs with hnone hours hctrl hsum hlock <;> exact ⟨(Option.some.inj hs).symm, hnone⟩

variable {x : Mac} {is : List (Offered HuntInput)}
  {log : List (Event (Hunt × Hunt) (Offered HuntInput) Unit)} {s : Hunt × Hunt}

/-- What holds of the entry of `x` before the call still holds when the call leaves the tables. -/
theorem Alike.of_tables (h : Alike x is log s) (e : Event (Hunt × Hunt) (Offered HuntInput) Unit)
    {s' : Hunt × Hunt} (happart : Apart x s'.1.table s'.2.table)
    (hx : ∀ p, s'.2.table.peers.find x = some p → s.2.table.peers.find x = some p)
    (hpin : s'.2.pin = s'.1.pin) (hpinned : s'.1.pin = none ∨ s'.1.pin = some .master)
    (hours : s'.2.ourMac = s'.1.ourMac) (hsilence : s'.2.silenceProven = s'.1.silenceProven)
    (hsettled : ∀ t, lastStep? (log ++ [e]) = some t → BurstOver is t →
      s'.2.verdict = s'.1.verdict) : Alike x is (log ++ [e]) s' := by
  refine ⟨happart, fun p hp => h.master p (hx p hp), ?_, fun p hp => h.last p (hx p hp), hpin, hpinned,
    hours, hsilence, hsettled⟩
  intro p hp
  rw [List.map_append, List.countP_append]
  exact Nat.le_add_right_of_le (h.frames p (hx p hp))

/-- A call that is no step keeps a verdict that is settled. -/
theorem Alike.settled_concat (h : Alike x is log s) {e : Event (Hunt × Hunt) (Offered HuntInput) Unit}
    (s' : Hunt × Hunt) (he : stepTime? e.input = none) (h₁ : s'.1.verdict = s.1.verdict)
    (h₂ : s'.2.verdict = s.2.verdict) :
    ∀ t, lastStep? (log ++ [e]) = some t → BurstOver is t → s'.2.verdict = s'.1.verdict := by
  intro t ht hover
  rw [lastStep?_concat, he, Option.none_or] at ht
  rw [h₁, h₂]
  exact h.settled t ht hover

theorem Alike.observe (h : Alike x is log s) {bytes : List UInt8} {now : ℕ}
    (hburst : ForgedBurst x is) (hin : .both (.observe bytes now) ∈ is)
    (halike : (s.2.sights bytes).2 = (s.1.sights bytes).2)
    (hroom₁ : s.1.table.peers.full = false) (hroom₂ : s.2.table.peers.full = false) :
    Alike x is (log ++ [huntMachine.twin.event s (.both (.observe bytes now))])
      ((huntObserve s.1 bytes now).1, (huntObserve s.2 bytes now).1) := by
  obtain ⟨hverdict₁, hpin₁, hours₁, hsilence₁⟩ := huntObserve_keeps s.1 bytes now
  obtain ⟨hverdict₂, hpin₂, hours₂, hsilence₂⟩ := huntObserve_keeps s.2 bytes now
  have htables : Apart x (huntObserve s.1 bytes now).1.table (huntObserve s.2 bytes now).1.table ∧
      (huntObserve s.2 bytes now).1.table.peers.find x = s.2.table.peers.find x := by
    cases hs : (s.1.sights bytes).2 with
    | none =>
      rw [huntObserve_none hs, huntObserve_none (halike.trans hs)]
      exact ⟨h.apart, rfl⟩
    | some g =>
      obtain ⟨hg, hkind⟩ := sights_eq hs
      have hmac : g.mac ≠ x := by
        rw [hg]
        exact hburst.unheard bytes now hin hkind
      rw [huntObserve_some hs, huntObserve_some (halike.trans hs)]
      exact ⟨h.apart.observe hmac hroom₁ hroom₂ now, tableObserve_find_other hmac.symm _ _⟩
  refine h.of_tables _ htables.1 ?_ ?_ ?_ ?_ ?_ (h.settled_concat _ rfl hverdict₁ hverdict₂)
  · intro p hp
    rw [← htables.2]
    exact hp
  · rw [hpin₁, hpin₂, h.pin]
  · rw [hpin₁]
    exact h.pinned
  · rw [hours₁, hours₂, h.ours]
  · rw [hsilence₁, hsilence₂, h.silence]

theorem sharpen_of_master {p : DiscoEntry} {g : Sighting} (hp : p.role = .master) (hg : g.role = .master)
    (now : ℕ) : (p.sharpen g false now).role = .master ∧
      (p.sharpen g false now).frames ≤ p.frames + 1 ∧ (p.sharpen g false now).lastSeen = now := by
  refine ⟨?_, ?_, rfl⟩
  · simp [DiscoEntry.sharpen, DiscoEntry.takesRole, hp, hg]
  · simp only [DiscoEntry.sharpen]
    split_ifs <;> omega

theorem Alike.forge (h : Alike x is log s) {bytes : List UInt8} {now : ℕ}
    (hin : .extra (.observe bytes now) ∈ is) (hforged : IsForgery x bytes)
    (hroom : s.2.table.peers.full = false) :
    Alike x is (log ++ [huntMachine.twin.event s (.extra (.observe bytes now))])
      (s.1, (huntObserve s.2 bytes now).1) := by
  obtain ⟨hverdict, hpin, hours, hsilence⟩ := huntObserve_keeps s.2 bytes now
  have hsettled : ∀ t,
      lastStep? (log ++ [huntMachine.twin.event s (.extra (.observe bytes now))]) = some t →
      BurstOver is t → (huntObserve s.2 bytes now).1.verdict = s.1.verdict :=
    h.settled_concat (s.1, (huntObserve s.2 bytes now).1) rfl rfl hverdict
  cases hs : (s.2.sights bytes).2 with
  | none =>
    rw [huntObserve_none hs] at hsettled ⊢
    exact h.of_tables _ h.apart (fun p hp => hp) h.pin h.pinned h.ours h.silence hsettled
  | some g =>
    obtain ⟨hg, -⟩ := sights_eq hs
    have hmac : g.mac = x := by rw [hg]; exact hforged.2.1
    have hrole : g.role = .master := by rw [hg]; exact hforged.2.2.2
    have hcount : (((log ++ [huntMachine.twin.event s (.extra (.observe bytes now))]).map
        Event.input).countP isExtra) = (log.map Event.input).countP isExtra + 1 := by
      rw [List.map_append, List.countP_append]
      rfl
    have hentry : ∀ p, (huntObserve s.2 bytes now).1.table.peers.find x = some p →
        p.role = .master ∧ p.frames ≤ (log.map Event.input).countP isExtra + 1 ∧
          p.lastSeen = now := by
      intro p hp
      rw [huntObserve_some hs] at hp
      cases hfind : s.2.table.peers.find x with
      | some q =>
        rw [← hmac] at hfind hp
        rw [(tableObserve_known hfind false now).2, if_pos rfl] at hp
        obtain rfl := Option.some.inj hp
        rw [hmac] at hfind
        have hsharp := sharpen_of_master (h.master q hfind) hrole now
        exact ⟨hsharp.1, Nat.le_trans hsharp.2.1 (Nat.succ_le_succ (h.frames q hfind)), hsharp.2.2⟩
      | none =>
        rw [← hmac] at hfind hp
        rw [(tableObserve_new hfind hroom false now).2, if_pos rfl] at hp
        obtain rfl := Option.some.inj hp
        exact ⟨hrole, Nat.le_add_left 1 _, rfl⟩
    refine ⟨?_, fun p hp => (hentry p hp).1, ?_, ?_, hpin.trans h.pin, h.pinned, hours.trans h.ours,
      hsilence.trans h.silence, hsettled⟩
    · rw [huntObserve_some hs]
      exact h.apart.observe_right hmac now
    · intro p hp
      rw [hcount]
      exact (hentry p hp).2.1
    · intro p hp
      exact ⟨_, hin, by rw [(hentry p hp).2.2]; rfl⟩

theorem decideVacant_congr {g h : Hunt} {now : ℕ}
    (hdesk : deskGeometryLive g.table g.ourMac now = deskGeometryLive h.table h.ourMac now)
    (hsilence : g.silenceProven = h.silenceProven) (hbox : boxPresent g.table now = boxPresent h.table now)
    (hwindow : h.silenceProven = false → boxPresent h.table now = true →
      (huntWindowNs ≤ elapsedNs now h.opened ↔ huntWindowNs ≤ elapsedNs now g.opened)) :
    decideVacant g now = decideVacant h now := by
  have hiff : decideVacant g now = .master ↔ decideVacant h now = .master := by
    rw [decideVacant_eq_master, decideVacant_eq_master, hdesk, hsilence, hbox]
    refine and_congr_right fun _ => ?_
    by_cases hproven : h.silenceProven = true
    · simp [hproven]
    · refine or_congr_right (and_congr_left fun hpresent => ?_)
      exact (hwindow (by simpa using hproven) hpresent).symm
  rcases decideVacant_cases g now with hg | hg <;> rcases decideVacant_cases h now with hh | hh <;>
    rw [hg, hh] at hiff ⊢ <;> simp at hiff

/-- The entry of `x` in the aged table is the one that was there. -/
theorem aged_entry {t : DiscoTable} {now : ℕ} {p : DiscoEntry}
    (hp : (tableAge t now).peers.find x = some p) : t.peers.find x = some p := by
  rw [tableAge_find] at hp
  exact (Option.filter_eq_some_iff.mp hp).1

/-- The burst neither looks like a box nor like a sender that is still held. -/
theorem Alike.unopposed_eq (h : Alike x is log s) {now : ℕ} (hwindow : SameWindow s now) :
    s.2.unopposed now = s.1.unopposed now := by
  unfold Hunt.unopposed
  rw [h.pin]
  rcases h.pinned with hpin | hpin
  · rw [hpin]
    have hrole : ∀ p, (tableAge s.2.table now).peers.find x = some p → p.role = .master :=
      fun p hp => h.master p (aged_entry hp)
    apply decideVacant_congr
    · show deskGeometryLive (tableAge s.2.table now) s.2.ourMac now =
        deskGeometryLive (tableAge s.1.table now) s.1.ourMac now
      rw [h.ours]
      refine (h.apart.age now).any_eq ?_
      intro p hp
      simp [hrole p hp]
    · exact h.silence
    · refine (h.apart.age now).any_eq ?_
      intro p hp
      simp [hrole p hp]
    · exact hwindow hpin
  · rw [hpin]

/-- Once the burst is over, the newest master it may have become is ignored. -/
theorem Alike.ignores (h : Alike x is log s) {now : ℕ} {p : DiscoEntry}
    (hfew : (log.map Event.input).countP isExtra < huntRivalFrames) (hover : BurstOver is now)
    (hp : s.2.rival now = some p) (hmac : p.mac = x) (hpending : s.1.pin = none → rivalKindOf p ≠ .pending) :
    s.2.heeds now = .ignore := by
  have hfind : s.2.table.peers.find x = some p :=
    (Roster.find_eq_some_iff _ _ _).mpr ⟨((mem_tableAge _ _ _).mp (rival_some hp).1).1, hmac⟩
  have hframes := h.frames p hfind
  obtain ⟨i, hi, ht⟩ := h.last p hfind
  have hquiet := hover i _ hi ht
  have hev : p.evidence now = .quiet := by
    unfold DiscoEntry.evidence DiscoEntry.streamed
    rw [if_neg (by rw [decide_eq_true_eq]; omega), if_neg (by omega)]
  unfold Hunt.heeds
  rw [hp, Option.elim_some, hev, h.pin]
  rcases h.pinned with hpin | hpin
  · rw [hpin]
    simp [heed, hpending hpin]
  · rw [hpin]
    rfl

theorem Alike.verdict_eq (h : Alike x is log s) {now : ℕ}
    (hfew : (log.map Event.input).countP isExtra < huntRivalFrames) (hover : BurstOver is now)
    (hrival : SameRival x s now) (hwindow : SameWindow s now)
    (hheld : s.1.heeds now = .hold → s.2.verdict = s.1.verdict) :
    (huntStep s.2 now).1.verdict = (huntStep s.1 now).1.verdict := by
  have hunopposed := h.unopposed_eq hwindow
  rw [huntStep_verdict, huntStep_verdict]
  rcases hrival with hsame | ⟨p, hp, hmac, hignore, hpending⟩
  · have hheeds : s.2.heeds now = s.1.heeds now := by
      unfold Hunt.heeds
      rw [hsame, h.pin]
    rw [hheeds]
    cases hcase : s.1.heeds now with
    | join => rfl
    | refuse => rfl
    | hold => exact hheld hcase
    | ignore => exact hunopposed
  · rw [h.ignores hfew hover hp hmac hpending, hignore]
    exact hunopposed

theorem Alike.step (h : Alike x is log s) {now : ℕ}
    (hfew : (log.map Event.input).countP isExtra < huntRivalFrames)
    (hcond : Unswayed x is log (huntMachine.twin.event s (.both (.step now)))) :
    Alike x is (log ++ [huntMachine.twin.event s (.both (.step now))])
      ((huntStep s.1 now).1, (huntStep s.2 now).1) := by
  refine h.of_tables _ (h.apart.age now) (fun p hp => aged_entry hp) h.pin h.pinned h.ours h.silence ?_
  intro t ht hover
  rw [lastStep?_concat] at ht
  obtain rfl : now = t := Option.some.inj ht
  obtain ⟨hrival, hwindow, hheld⟩ := hcond hover
  refine h.verdict_eq hfew hover hrival hwindow fun hhold => ?_
  rcases hheld hhold with ⟨t, ht, hover'⟩ | hsame
  · exact h.settled t ht hover'
  · exact hsame

/-- The condition, the room and the burst carry over from one call to the next. -/
theorem Alike.call (h : Alike x is log s) (hburst : ForgedBurst x is) {i : Offered HuntInput}
    (hin : i ∈ is) (hfew : (log.map Event.input).countP isExtra < huntRivalFrames)
    (hroom : s.1.table.peers.full = false ∧ s.2.table.peers.full = false)
    (hcond : Unswayed x is log (huntMachine.twin.event s i)) :
    Alike x is (log ++ [huntMachine.twin.event s i]) (huntMachine.twin.step s i).1 := by
  cases i with
  | extra i =>
    obtain ⟨bytes, now, rfl, hforged⟩ := hburst.forged i hin
    exact h.forge hin hforged hroom.2
  | both i =>
    cases i with
    | observe bytes now => exact h.observe hburst hin hcond hroom.1 hroom.2
    | step now => exact h.step hfew hcond
    | pin role =>
      obtain rfl := hburst.pins role hin
      exact h.of_tables _ h.apart (fun p hp => hp) rfl (.inr rfl) h.ours h.silence
        (h.settled_concat _ rfl rfl rfl)
    | silenceProven =>
      exact h.of_tables _ h.apart (fun p hp => hp) h.pin h.pinned h.ours rfl
        (h.settled_concat _ rfl rfl rfl)

theorem forged_burst_leaves_no_trace (ourMac x : Mac) (t₀ : ℕ) (is : List (Offered HuntInput))
    (hburst : ForgedBurst x is)
    (hroom : ∀ log e, huntMachine.twin.StepOf (huntInit ourMac t₀, huntInit ourMac t₀) is log e →
      e.pre.1.table.peers.full = false ∧ e.pre.2.table.peers.full = false)
    (hcond : ∀ log e, huntMachine.twin.StepOf (huntInit ourMac t₀, huntInit ourMac t₀) is log e →
      Unswayed x is log e)
    (before after : List (Offered HuntInput)) (now : ℕ)
    (hsplit : is = before ++ .both (.step now) :: after) (hover : BurstOver is now) :
    (huntMachine.run (huntInit ourMac t₀) (before.map Offered.input ++ [.step now])).verdict =
      (huntMachine.run (huntInit ourMac t₀) (before.filterMap Offered.both? ++ [.step now])).verdict := by
  have hstart : Alike x is [] (huntInit ourMac t₀, huntInit ourMac t₀) := by
    refine ⟨⟨fun _ _ => rfl, rfl⟩, ?_, ?_, ?_, rfl, .inl rfl, rfl, rfl, fun _ _ _ => rfl⟩ <;>
      exact fun p hp => absurd hp (by simp [huntInit])
  have hlegal : ∀ log e, huntMachine.twin.StepOf (huntInit ourMac t₀, huntInit ourMac t₀) is log e →
      e.input ∈ is ∧ (log.map Event.input).countP isExtra < huntRivalFrames ∧
        (e.pre.1.table.peers.full = false ∧ e.pre.2.table.peers.full = false) ∧
        Unswayed x is log e := by
    intro log e he
    refine ⟨he.input_mem huntMachine.twin, ?_, hroom log e he, hcond log e he⟩
    obtain ⟨rest, hinputs⟩ := he.inputs huntMachine.twin
    refine Nat.lt_of_le_of_lt ?_ hburst.few
    rw [hinputs, List.countP_append]
    exact Nat.le_add_right _ _
  have hrun := huntMachine.twin.trace_invariant (H := Alike x is)
    (L := fun log e => e.input ∈ is ∧ (log.map Event.input).countP isExtra < huntRivalFrames ∧
      (e.pre.1.table.peers.full = false ∧ e.pre.2.table.peers.full = false) ∧ Unswayed x is log e)
    hstart (fun _ _ _ h hl => h.call hburst hl.1 hl.2.1 hl.2.2.1 hl.2.2.2)
    (before ++ [.both (.step now)]) (by
      intro log e he
      apply hlegal
      rw [hsplit, ← List.singleton_append, ← List.append_assoc]
      exact he.append huntMachine.twin after)
  have hlast : lastStep? (huntMachine.twin.trace (huntInit ourMac t₀, huntInit ourMac t₀)
      (before ++ [.both (.step now)])) = some now := by
    rw [huntMachine.twin.trace_concat, lastStep?_concat]
    rfl
  have hsame := hrun.settled now hlast hover
  rw [huntMachine.twin_run] at hsame
  simpa [Offered.both?, Offered.input] using hsame

instance (x : Mac) (bytes : List UInt8) : Decidable (IsForgery x bytes) :=
  inferInstanceAs (Decidable (_ ∧ _))

/-- One forged frame beside one frame of somebody else, then a step. -/
theorem forgedBurst_of_one {f g : List UInt8} {t t' now : ℕ}
    (hmem : ∀ i ∈ is, i = .extra (.observe f t) ∨ i = .both (.observe g t') ∨ i = .both (.step now))
    (hfew : is.countP isExtra < huntRivalFrames) (hf : IsForgery x f)
    (hg : (ctrlParse (cleanFrame g)).src ≠ x) (hlate : t + huntRivalQuietNs < now) :
    ForgedBurst x is ∧ BurstOver is now := by
  have hextra : ∀ i, .extra i ∈ is → i = .observe f t := by
    intro i hi
    rcases hmem _ hi with h | h | h <;> cases h
    rfl
  refine ⟨⟨?_, hfew, ?_, ?_⟩, ?_⟩
  · intro i hi
    exact ⟨f, t, hextra i hi, hf⟩
  · intro bytes _ hi _
    rcases hmem _ hi with h | h | h <;> cases h
    exact hg
  · intro role hi
    rcases hmem _ hi with h | h | h <;> cases h
  · intro i t₁ hi ht
    rw [hextra i hi] at ht
    obtain rfl : t = t₁ := Option.some.inj ht
    exact hlate

/-- A box is heard, then one forged announce. -/
def forgedBesideBox : List (Offered HuntInput) :=
  [.both (.observe (heartbeatFrame huntBox) 0), .extra (.observe (announceFrame huntForger 8 8) 1000000)]

/-- The two hunts before the step. -/
def besideBox : Hunt × Hunt :=
  huntMachine.twin.run (huntInit huntMac 0, huntInit huntMac 0) forgedBesideBox

theorem forged_burst_beside_box :
    (huntMachine.run (huntInit huntMac 0)
        (forgedBesideBox.map Offered.input ++ [.step 3100000000])).verdict =
      (huntMachine.run (huntInit huntMac 0)
        (forgedBesideBox.filterMap Offered.both? ++ [.step 3100000000])).verdict := by
  have hall : ∀ i ∈ forgedBesideBox ++ [.both (.step 3100000000)],
      i = .extra (.observe (announceFrame huntForger 8 8) 1000000) ∨
        i = .both (.observe (heartbeatFrame huntBox) 0) ∨ i = .both (.step 3100000000) := by
    simp [forgedBesideBox]
  obtain ⟨hburst, hover⟩ : ForgedBurst huntForger (forgedBesideBox ++ [.both (.step 3100000000)]) ∧
      BurstOver (forgedBesideBox ++ [.both (.step 3100000000)]) 3100000000 :=
    forgedBurst_of_one hall (by decide) (by decide +kernel) (by decide +kernel) (by decide)
  have hroom : ∀ log e, huntMachine.twin.StepOf (huntInit huntMac 0, huntInit huntMac 0)
      (forgedBesideBox ++ [.both (.step 3100000000)]) log e →
      e.pre.1.table.peers.full = false ∧ e.pre.2.table.peers.full = false := by
    apply huntMachine.twin.forall_stepOf
      (P := fun _ e => e.pre.1.table.peers.full = false ∧ e.pre.2.table.peers.full = false)
    decide +kernel
  have hrival : SameRival huntForger besideBox 3100000000 := by
    have hforger : ∃ p ∈ (besideBox.2.rival 3100000000).toList,
        p.mac = huntForger ∧ rivalKindOf p ≠ .pending := by decide +kernel
    obtain ⟨p, hp, hmac, hkind⟩ := hforger
    exact .inr ⟨p, Option.mem_toList.mp hp, hmac, by decide +kernel, fun _ => hkind⟩
  have hwindow : SameWindow besideBox 3100000000 := by
    intro _ _ _
    decide +kernel
  have hcond : ∀ log e, huntMachine.twin.StepOf (huntInit huntMac 0, huntInit huntMac 0)
      (forgedBesideBox ++ [.both (.step 3100000000)]) log e →
      Unswayed huntForger (forgedBesideBox ++ [.both (.step 3100000000)]) log e := by
    refine huntMachine.twin.forall_stepOf ?_
    intro n hn
    have hlen : n < 3 := hn
    rcases n with _ | _ | _ | n
    · exact rfl
    · exact trivial
    · intro _
      refine ⟨hrival, hwindow, ?_⟩
      intro hhold
      have hignore : besideBox.1.heeds 3100000000 = .ignore := by decide +kernel
      exact absurd (hignore.symm.trans hhold) (by decide)
    · omega
  exact forged_burst_leaves_no_trace huntMac huntForger 0 _ hburst hroom hcond forgedBesideBox []
    3100000000 rfl hover

/-- One forged announce, then the flood of a box that has lost its master. -/
def forgedBeforeFlood : List (Offered HuntInput) :=
  [.extra (.observe (announceFrame huntForger 8 8) 0),
    .both (.observe (broadcastFrame huntBox [0x00, 0x00] [] 8) 10000000)]

/-- The forged frame takes the peer lock, so the box is never heard. -/
theorem forged_burst_mutes_box :
    ForgedBurst huntForger (forgedBeforeFlood ++ [.both (.step 3100000000)]) ∧
      BurstOver (forgedBeforeFlood ++ [.both (.step 3100000000)]) 3100000000 ∧
      (∀ log e, huntMachine.twin.StepOf (huntInit huntMac 0, huntInit huntMac 0)
        (forgedBeforeFlood ++ [.both (.step 3100000000)]) log e →
        e.pre.1.table.peers.full = false ∧ e.pre.2.table.peers.full = false) ∧
      (huntMachine.run (huntInit huntMac 0)
        (forgedBeforeFlood.map Offered.input ++ [.step 3100000000])).verdict = .hunting ∧
      (huntMachine.run (huntInit huntMac 0)
        (forgedBeforeFlood.filterMap Offered.both? ++ [.step 3100000000])).verdict = .master := by
  have hall : ∀ i ∈ forgedBeforeFlood ++ [.both (.step 3100000000)],
      i = .extra (.observe (announceFrame huntForger 8 8) 0) ∨
        i = .both (.observe (broadcastFrame huntBox [0x00, 0x00] [] 8) 10000000) ∨
        i = .both (.step 3100000000) := by
    simp [forgedBeforeFlood]
  obtain ⟨hburst, hover⟩ : ForgedBurst huntForger (forgedBeforeFlood ++ [.both (.step 3100000000)]) ∧
      BurstOver (forgedBeforeFlood ++ [.both (.step 3100000000)]) 3100000000 :=
    forgedBurst_of_one hall (by decide) (by decide +kernel) (by decide +kernel) (by decide)
  refine ⟨hburst, hover, ?_, by decide +kernel, by decide +kernel⟩
  apply huntMachine.twin.forall_stepOf
    (P := fun _ e => e.pre.1.table.peers.full = false ∧ e.pre.2.table.peers.full = false)
  decide +kernel

end Burst

end Libreac
