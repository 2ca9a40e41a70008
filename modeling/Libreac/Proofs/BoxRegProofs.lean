import Mathlib
import Libreac.BoxReg

/-!
# Proofs: the registry of boxes

The slots of a box are an interval of the fabric, and a registry is a family of disjoint ones. What a
call does is one of four things (`BoxRegMove`); everything else follows from those.
-/

namespace Libreac

/-- The slots of the fabric that a range takes. -/
def slotRange (base nch : ℤ) : Set ℤ := Set.Ico base (base + nch)

/-- The slots of a box. -/
def Box.slots (b : Box) : Set ℤ := slotRange b.base b.nch

/-- The range lies within the fabric and takes no slot of another box. -/
def BoxReg.Fits (r : BoxReg) (base nch : ℤ) : Prop :=
  slotRange base nch ⊆ Set.Ico 0 r.fabric ∧ ∀ b ∈ r.boxes, Disjoint (slotRange base nch) b.slots

/-- The boxes are as wide as boxes are and take disjoint ranges of the fabric, there are at most five,
and no two of them have one MAC. -/
structure BoxReg.Ok (r : BoxReg) : Prop where
  room : r.boxes.length ≤ boxregMaxBoxes
  width : ∀ b ∈ r.boxes, boxWidthOk b.nch = true
  inside : ∀ b ∈ r.boxes, b.slots ⊆ Set.Ico 0 r.fabric
  apart : r.boxes.Pairwise fun a b => Disjoint a.slots b.slots
  macs : r.boxes.Pairwise fun a b => a.mac = b.mac → a.mac = noMac

/-- The registry places the box itself. -/
def BoxCall.isAutomatic : BoxCall → Bool
  | .declare _ _ base => base < 0
  | .add _ _ => true
  | .setName _ _ => false

variable {r r' : BoxReg} {base nch : ℤ} {call : BoxCall}

theorem boxWidthOk_iff {n : ℤ} : boxWidthOk n = true ↔ 2 ≤ n ∧ n ≤ 40 ∧ n % 2 = 0 := by
  simp [boxWidthOk]

theorem widthOk_iff : widthOk r nch = true ↔ boxWidthOk nch = true ∧ nch ≤ r.fabric := by
  simp [widthOk]

/-! ## Ranges -/

theorem slotRange_subset (hnch : 0 < nch) {f : ℤ} :
    slotRange base nch ⊆ Set.Ico 0 f ↔ 0 ≤ base ∧ base + nch ≤ f := by
  unfold slotRange
  exact Set.Ico_subset_Ico_iff (by omega)

/-- The overlap test of the source says whether two ranges share a slot. -/
theorem slotRange_disjoint {b : Box} (hnch : 0 < nch) (hb : 0 < b.nch) :
    Disjoint (slotRange base nch) b.slots ↔ ¬ (base < b.base + b.nch ∧ b.base < base + nch) := by
  unfold Box.slots slotRange
  rw [Set.Ico_disjoint_Ico]
  omega

theorem fits_iff (ok : r.Ok) (hnch : 0 < nch) :
    r.Fits base nch ↔ (0 ≤ base ∧ base + nch ≤ r.fabric) ∧ rangeTaken r base nch = false := by
  unfold BoxReg.Fits rangeTaken
  rw [slotRange_subset hnch, List.any_eq_false]
  refine and_congr Iff.rfl (forall₂_congr fun b hb => ?_)
  have hwidth := (boxWidthOk_iff.mp (ok.width b hb)).1
  rw [slotRange_disjoint hnch (by omega), decide_eq_true_iff]

/-- The scan finds the lowest base that fits. -/
theorem lowestFreeBase_least (ok : r.Ok) (hnch : 0 < nch) {n : ℕ} (h : lowestFreeBase r nch = some n) :
    IsLeast {base | r.Fits base nch} n := by
  unfold lowestFreeBase at h
  rw [List.find?_range_eq_some] at h
  obtain ⟨hfree, hmem, hbelow⟩ := h
  rw [List.mem_range] at hmem
  constructor
  · refine (fits_iff ok hnch).mpr ⟨by omega, ?_⟩
    simpa using hfree
  · intro base hbase
    obtain ⟨⟨hnonneg, -⟩, hbase⟩ := (fits_iff ok hnch).mp hbase
    by_contra hlt
    have htaken := hbelow base.toNat (by omega)
    rw [Int.toNat_of_nonneg hnonneg, hbase] at htaken
    cases htaken

/-! ## What a call does -/

/-- What a call does: nothing, or a new row that fits, or a waiting row gets its MAC, or a row gets a
name. -/
inductive BoxRegMove (r : BoxReg) (call : BoxCall) : BoxReg → BoxAnswer → Prop where
  | stay (answer : BoxAnswer) : BoxRegMove r call r answer
  | place (b : Box) (hwidth : boxWidthOk b.nch = true) (hroom : r.boxes.length < boxregMaxBoxes)
      (hfits : r.Fits b.base b.nch) (hmac : ∀ b' ∈ r.boxes, b'.mac = b.mac → b'.mac = noMac)
      (hleast : call.isAutomatic = true → IsLeast {base | r.Fits base b.nch} b.base) :
      BoxRegMove r call (r.push b).1 (r.push b).2
  | bind (i : ℕ) (mac : Mac) (hwaits : ∀ b, r.boxes[i]? = some b → b.mac = noMac)
      (hmac : ∀ b ∈ r.boxes, b.mac ≠ mac) :
      BoxRegMove r call { r with boxes := r.boxes.modify i fun b => { b with mac := mac } } (.index i)
  | rename (i : ℕ) (name : Option CString) :
      BoxRegMove r call
        { r with boxes := r.boxes.modify i fun b => { b with name := boxName name } } .done

theorem boxregDeclare_move (ok : r.Ok) (nch : ℤ) (name : Option CString) (base : ℤ) :
    BoxRegMove r (.declare nch name base) (boxregDeclare r nch name base).1
      (boxregDeclare r nch name base).2 := by
  have hunbound : ∀ b' ∈ r.boxes, b'.mac = noMac → b'.mac = noMac := fun _ _ h => h
  unfold boxregDeclare
  by_cases hfull : widthOk r nch = false ∨ boxregMaxBoxes ≤ r.boxes.length
  · rw [if_pos hfull]
    exact .stay _
  rw [if_neg hfull]
  rw [not_or, Bool.not_eq_false, Nat.not_le] at hfull
  obtain ⟨hwidth, hroom⟩ := hfull
  obtain ⟨hwidth, hfabric⟩ := widthOk_iff.mp hwidth
  have hpos : 0 < nch := by
    have := (boxWidthOk_iff.mp hwidth).1
    omega
  by_cases hpinned : 0 ≤ base
  · rw [if_pos hpinned]
    by_cases hbad : r.fabric - nch < base ∨ rangeTaken r base nch = true
    · rw [if_pos hbad]
      exact .stay _
    · rw [if_neg hbad]
      rw [not_or, Bool.not_eq_true] at hbad
      have hfits : r.Fits base nch := (fits_iff ok hpos).mpr ⟨⟨hpinned, by omega⟩, hbad.2⟩
      refine .place { base := base, nch := nch, pinned := true, name := boxName name } hwidth hroom
        hfits hunbound ?_
      intro hauto
      simp only [BoxCall.isAutomatic, decide_eq_true_eq] at hauto
      omega
  · rw [if_neg hpinned]
    cases hlow : lowestFreeBase r nch with
    | none => exact .stay _
    | some n =>
      have hleast := lowestFreeBase_least ok hpos hlow
      exact .place { base := n, nch := nch, name := boxName name } hwidth hroom hleast.1 hunbound
        fun _ => hleast

theorem boxregFind_none {mac : Mac} (hmac : mac ≠ noMac) (h : boxregFind r mac = none) :
    ∀ b ∈ r.boxes, b.mac ≠ mac := by
  unfold boxregFind at h
  rw [if_neg hmac, List.findIdx?_eq_none_iff] at h
  intro b hb
  simpa using h b hb

theorem boxregAdd_move (ok : r.Ok) (mac : Mac) (nch : ℤ) :
    BoxRegMove r (.add mac nch) (boxregAdd r mac nch).1 (boxregAdd r mac nch).2 := by
  unfold boxregAdd
  by_cases hwidth : widthOk r nch = false
  · rw [if_pos hwidth]
    exact .stay _
  rw [if_neg hwidth]
  obtain ⟨hwidth, hfabric⟩ := widthOk_iff.mp (Bool.not_eq_false _ ▸ hwidth)
  have hpos : 0 < nch := by
    have := (boxWidthOk_iff.mp hwidth).1
    omega
  by_cases hmac : mac = noMac
  · rw [if_pos hmac]
    exact .stay _
  rw [if_neg hmac]
  cases hfind : boxregFind r mac with
  | some idx => exact .stay _
  | none =>
    have hfresh := boxregFind_none hmac hfind
    dsimp only
    cases hwaits : r.boxes.findIdx? fun b => b.waitsFor nch with
    | some i =>
      refine .bind i mac ?_ hfresh
      intro b hb
      obtain ⟨hi, hwait, -⟩ := List.findIdx?_eq_some_iff_getElem.mp hwaits
      rw [List.getElem?_eq_getElem hi] at hb
      rw [Option.some.inj hb, Box.waitsFor, decide_eq_true_iff] at hwait
      exact hwait.1
    | none =>
      dsimp only
      by_cases hfull : boxregMaxBoxes ≤ r.boxes.length
      · rw [if_pos hfull]
        exact .stay _
      rw [if_neg hfull]
      cases hlow : lowestFreeBase r nch with
      | none => exact .stay _
      | some n =>
        have hleast := lowestFreeBase_least ok hpos hlow
        exact .place { mac := mac, base := n, nch := nch } hwidth (Nat.lt_of_not_le hfull) hleast.1
          (fun b hb heq => absurd heq (hfresh b hb)) fun _ => hleast

theorem boxregCall_move (ok : r.Ok) (call : BoxCall) :
    BoxRegMove r call (boxregCall r call).1 (boxregCall r call).2 := by
  cases call with
  | declare nch name base => exact boxregDeclare_move ok nch name base
  | add mac nch => exact boxregAdd_move ok mac nch
  | setName idx name =>
    simp only [boxregCall, boxregSetName]
    by_cases hidx : idx < 0 ∨ (r.boxes.length : ℤ) ≤ idx
    · rw [if_pos hidx]
      exact .stay _
    · rw [if_neg hidx]
      exact .rename idx.toNat name

/-! ## The registry stays sound -/

theorem mem_modify {α : Type} {l : List α} {i : ℕ} {f : α → α} {a : α} (h : a ∈ l.modify i f) :
    a ∈ l ∨ ∃ a' ∈ l, a = f a' := by
  obtain ⟨j, hj, rfl⟩ := List.mem_iff_getElem.mp h
  rw [List.getElem_modify]
  rw [List.length_modify] at hj
  split_ifs
  · exact .inr ⟨l[j], List.getElem_mem hj, rfl⟩
  · exact .inl (List.getElem_mem hj)

/-- What is pairwise stays so where one row is changed into one that is related like it. -/
theorem pairwise_modify {α : Type} {R : α → α → Prop} {l : List α} (hl : l.Pairwise R) (i : ℕ)
    {f : α → α} (hleft : ∀ a, l[i]? = some a → ∀ b ∈ l, R a b → R (f a) b)
    (hright : ∀ a, l[i]? = some a → ∀ b ∈ l, R b a → R b (f a)) : (l.modify i f).Pairwise R := by
  rw [List.pairwise_iff_getElem] at hl ⊢
  intro j k hj hk hjk
  rw [List.length_modify] at hj hk
  have hrel := hl j k hj hk hjk
  rw [List.getElem_modify, List.getElem_modify]
  by_cases hij : i = j
  · subst hij
    rw [if_pos rfl, if_neg (by omega)]
    exact hleft _ (List.getElem?_eq_getElem hj) _ (List.getElem_mem hk) hrel
  · rw [if_neg hij]
    by_cases hik : i = k
    · subst hik
      rw [if_pos rfl]
      exact hright _ (List.getElem?_eq_getElem hk) _ (List.getElem_mem hj) hrel
    · rw [if_neg hik]
      exact hrel

/-- A row that keeps its range keeps all but the MACs. -/
theorem BoxReg.Ok.modify (ok : r.Ok) (i : ℕ) {f : Box → Box} (hbase : ∀ b, (f b).base = b.base)
    (hnch : ∀ b, (f b).nch = b.nch)
    (hmacs : (r.boxes.modify i f).Pairwise fun a b => a.mac = b.mac → a.mac = noMac) :
    ({ r with boxes := r.boxes.modify i f } : BoxReg).Ok := by
  have hslots : ∀ b, (f b).slots = b.slots := by
    intro b
    rw [Box.slots, Box.slots, hbase, hnch]
  refine ⟨?_, ?_, ?_, ?_, hmacs⟩
  · dsimp only
    rw [List.length_modify]
    exact ok.room
  · intro b hb
    rcases mem_modify hb with hb | ⟨b', hb', rfl⟩
    · exact ok.width b hb
    · rw [hnch]
      exact ok.width b' hb'
  · intro b hb
    rcases mem_modify hb with hb | ⟨b', hb', rfl⟩
    · exact ok.inside b hb
    · rw [hslots]
      exact ok.inside b' hb'
  · refine pairwise_modify ok.apart i ?_ ?_
    · intro a _ b _ hab
      rwa [hslots]
    · intro a _ b _ hab
      rwa [hslots]

theorem BoxRegMove.ok {answer : BoxAnswer} (h : BoxRegMove r call r' answer) (ok : r.Ok) :
    r'.Ok := by
  cases h with
  | stay => exact ok
  | place b hwidth hroom hfits hmac _ =>
    refine ⟨?_, ?_, ?_, ?_, ?_⟩
    · show (r.boxes ++ [b]).length ≤ boxregMaxBoxes
      rw [List.length_append, List.length_singleton]
      omega
    · intro b' hb'
      rcases List.mem_append.mp hb' with hb' | hb'
      · exact ok.width b' hb'
      · rw [List.mem_singleton.mp hb']
        exact hwidth
    · intro b' hb'
      rcases List.mem_append.mp hb' with hb' | hb'
      · exact ok.inside b' hb'
      · rw [List.mem_singleton.mp hb']
        exact hfits.1
    · refine List.pairwise_append.mpr ⟨ok.apart, List.pairwise_singleton .., ?_⟩
      intro b' hb' c hc
      rw [List.mem_singleton.mp hc]
      exact (hfits.2 b' hb').symm
    · refine List.pairwise_append.mpr ⟨ok.macs, List.pairwise_singleton .., ?_⟩
      intro b' hb' c hc
      rw [List.mem_singleton.mp hc]
      exact hmac b' hb'
  | bind i mac hwaits hmac =>
    refine ok.modify i (fun _ => rfl) (fun _ => rfl) (pairwise_modify ok.macs i ?_ ?_)
    · intro a _ b hb _ heq
      exact absurd heq.symm (hmac b hb)
    · intro a _ b hb _ heq
      exact absurd heq (hmac b hb)
  | rename i name =>
    exact ok.modify i (fun _ => rfl) (fun _ => rfl)
      (pairwise_modify ok.macs i (fun _ _ _ _ h => h) (fun _ _ _ _ h => h))

theorem boxReg_ok_run (fabric : ℤ) (is : List BoxCall) : (boxMachine.run (boxregInit fabric) is).Ok := by
  have hinit : (boxregInit fabric).Ok := by
    refine ⟨Nat.zero_le _, ?_, ?_, .nil, .nil⟩
    · intro b hb
      cases hb
    · intro b hb
      cases hb
  exact boxMachine.run_invariant (L := fun _ _ => True) hinit
    (fun _ call ok _ => (boxregCall_move ok call).ok ok) is fun _ _ _ => trivial

/-- Every row stays where it is and as wide as it is, and one that has its MAC keeps it. -/
theorem BoxRegMove.keeps {answer : BoxAnswer} (h : BoxRegMove r call r' answer) {i : ℕ}
    {b : Box} (hb : r.boxes[i]? = some b) :
    ∃ b', r'.boxes[i]? = some b' ∧ b'.base = b.base ∧ b'.nch = b.nch ∧
      (b.mac ≠ noMac → b'.mac = b.mac) := by
  have hi : i < r.boxes.length := (List.getElem?_eq_some_iff.mp hb).1
  cases h with
  | stay => exact ⟨b, hb, rfl, rfl, fun _ => rfl⟩
  | place new =>
    refine ⟨b, ?_, rfl, rfl, fun _ => rfl⟩
    show (r.boxes ++ [new])[i]? = some b
    rw [List.getElem?_append_left hi, hb]
  | bind j mac hwaits _ =>
    refine ⟨if j = i then { b with mac := mac } else b, ?_, ?_, ?_, ?_⟩
    · rw [List.getElem?_modify, hb]
      split_ifs <;> rfl
    · split_ifs <;> rfl
    · split_ifs <;> rfl
    · intro hmac
      split_ifs with hji
      · subst hji
        exact absurd (hwaits b hb) hmac
      · rfl
  | rename j name =>
    refine ⟨if j = i then { b with name := boxName name } else b, ?_, ?_, ?_, ?_⟩
    · rw [List.getElem?_modify, hb]
      split_ifs <;> rfl
    · split_ifs <;> rfl
    · split_ifs <;> rfl
    · intro _
      split_ifs <;> rfl

theorem BoxRegMove.refused (h : BoxRegMove r call r' .refused) : r' = r := by
  generalize hanswer : BoxAnswer.refused = answer at h
  cases h with
  | stay => rfl
  | place | bind | rename => cases hanswer

/-- A row that is new was placed where it fits, and as low as it fits if the registry chose. -/
theorem BoxRegMove.placed {answer : BoxAnswer} (h : BoxRegMove r call r' answer) {b : Box}
    (hb : r'.boxes[r.boxes.length]? = some b) :
    r.Fits b.base b.nch ∧ (call.isAutomatic = true → IsLeast {base | r.Fits base b.nch} b.base) := by
  have hnone : ∀ l : List Box, l.length = r.boxes.length → l[r.boxes.length]? ≠ some b := by
    intro l hl hsome
    rw [← hl, List.getElem?_eq_none (Nat.le_refl _)] at hsome
    cases hsome
  cases h with
  | stay => exact absurd hb (hnone _ rfl)
  | bind i mac => exact absurd hb (hnone _ (List.length_modify ..))
  | rename i name => exact absurd hb (hnone _ (List.length_modify ..))
  | place new hwidth hroom hfits _ hleast =>
    have hnew : (r.boxes ++ [new])[r.boxes.length]? = some new := by simp
    obtain rfl : new = b := Option.some.inj (hnew.symm.trans hb)
    exact ⟨hfits, hleast⟩

/-- A box that is known gets its row if it comes back as wide as some box of this registry could be,
and is refused if it does not. -/
theorem boxregAdd_known {mac : Mac} {idx : ℕ} (hfind : boxregFind r mac = some idx) :
    boxregAdd r mac nch = (r, if widthOk r nch = true then .index idx else .refused) := by
  have hmac : mac ≠ noMac := by
    intro hmac
    rw [boxregFind, if_pos hmac] at hfind
    cases hfind
  cases hwidth : widthOk r nch with
  | false => rw [boxregAdd, if_pos hwidth, if_neg (by decide)]
  | true => rw [boxregAdd, if_neg (by rw [hwidth]; decide), if_neg hmac, hfind, if_pos rfl]

/-- After any calls the registry is sound, and the next call refuses without a trace, places a new box
where it fits and, if the choice is its own, as low as it fits, gives a known box its row or refuses
it for a width that no box of the registry has, and leaves every row where it is, as wide as it is and
under the MAC it has. -/
theorem boxreg_keeps_its_boxes (fabric : ℤ) (is : List BoxCall) :
    let r := boxMachine.run (boxregInit fabric) is
    r.Ok ∧ ∀ call,
      ((boxregCall r call).2 = .refused → (boxregCall r call).1 = r) ∧
      (∀ b, (boxregCall r call).1.boxes[r.boxes.length]? = some b →
        r.Fits b.base b.nch ∧
          (call.isAutomatic = true → IsLeast {base | r.Fits base b.nch} b.base)) ∧
      (∀ mac nch idx, call = .add mac nch → boxregFind r mac = some idx →
        boxregCall r call = (r, if widthOk r nch = true then .index idx else .refused)) ∧
      ∀ (i : ℕ) b, r.boxes[i]? = some b → ∃ b', (boxregCall r call).1.boxes[i]? = some b' ∧
        b'.base = b.base ∧ b'.nch = b.nch ∧ (b.mac ≠ noMac → b'.mac = b.mac) := by
  intro r
  have ok := boxReg_ok_run fabric is
  refine ⟨ok, ?_⟩
  intro call
  have hmove := boxregCall_move ok call
  refine ⟨?_, fun b hb => hmove.placed hb, ?_, fun i b hb => hmove.keeps hb⟩
  · intro hrefused
    rw [hrefused] at hmove
    exact hmove.refused
  · rintro mac nch idx rfl hfind
    exact boxregAdd_known hfind

/-- A known box that asks for an odd width is refused, not given its row. -/
theorem boxreg_rejoin_refused : ¬ ∀ fabric is mac nch idx,
    boxregFind (boxMachine.run (boxregInit fabric) is) mac = some idx →
      boxregCall (boxMachine.run (boxregInit fabric) is) (.add mac nch) =
        (boxMachine.run (boxregInit fabric) is, .index idx) := by
  intro h
  have hanswer := congrArg Prod.snd (h 40 [.add broadcastMac 8] broadcastMac 7 0 (by decide))
  cases (by decide : (BoxAnswer.refused : BoxAnswer) ≠ .index 0) hanswer

end Libreac
