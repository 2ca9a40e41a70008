import Libreac.Proofs.CtrlProofs
import Libreac.Tags

/-!
# Proofs: a tag means the same wherever it was stripped

A tag put into the bytes moves everything behind it by four (`be16At_insertTag_add`), so the loop over
them ends as the loop over the bare frame does, one tag deeper (`tagLoop_insertTag`).
-/

namespace Libreac

variable {b : List UInt8} {off depth : ℕ} {vid tci : UInt16}

/-! ## Words in the buffer -/

/-- A word inside the buffer is read. -/
theorem be16At_eq (h : off + 2 ≤ b.length) : be16At b off = some (u16be b[off] b[off + 1]) := by
  unfold be16At
  rw [List.getElem?_eq_getElem (by omega), List.getElem?_eq_getElem (by omega)]
  rfl

theorem length_insertTag (b : List UInt8) (tci : UInt16) : (insertTag b tci).length = b.length + 4 := by
  simp only [insertTag, List.length_append, List.length_take, List.length_drop, List.length_cons,
    List.length_nil]
  omega

/-- What lies behind the tag has moved by its four bytes. -/
theorem getElem?_insertTag_add (hb : 12 ≤ b.length) {i : ℕ} (hi : 12 ≤ i) :
    (insertTag b tci)[i + 4]? = b[i]? := by
  unfold insertTag
  rw [List.getElem?_append_right (by simp; omega), List.getElem?_drop]
  congr 1
  simp only [List.length_append, List.length_take, List.length_cons, List.length_nil]
  omega

theorem be16At_insertTag_add (hb : 12 ≤ b.length) (hoff : 12 ≤ off) :
    be16At (insertTag b tci) (off + 4) = be16At b off := by
  unfold be16At
  rw [getElem?_insertTag_add hb hoff, show off + 4 + 1 = off + 1 + 4 by omega,
    getElem?_insertTag_add hb (by omega)]

/-- The bytes of the tag. -/
theorem getElem?_insertTag_tag (hb : 12 ≤ b.length) {i : ℕ} (hi : i < 4) :
    (insertTag b tci)[12 + i]? = ([0x81, 0x00, (tci >>> 8).toUInt8, tci.toUInt8] : List UInt8)[i]? := by
  have htake : (b.take 12).length = 12 := by simp [hb]
  unfold insertTag
  rw [List.append_assoc, List.getElem?_append_right (by omega), htake, Nat.add_sub_cancel_left,
    List.getElem?_append_left (by simpa using hi)]

theorem be16At_insertTag_type (hb : 12 ≤ b.length) : be16At (insertTag b tci) 12 = some vlanCtag := by
  unfold be16At
  rw [getElem?_insertTag_tag hb (show 0 < 4 by omega), getElem?_insertTag_tag hb (show 1 < 4 by omega)]
  rfl

theorem be16At_insertTag_tci (hb : 12 ≤ b.length) : be16At (insertTag b tci) 14 = some tci := by
  unfold be16At
  rw [getElem?_insertTag_tag hb (show 2 < 4 by omega), getElem?_insertTag_tag hb (show 3 < 4 by omega)]
  exact congrArg some (u16be_eq_iff.mpr ⟨rfl, rfl⟩)

/-! ## The loop -/

/-- The loop reads inside the buffer, and ends in front of a type inside it. -/
theorem tagLoop_inside (hoff : off + 2 ≤ b.length) (depth : ℕ) (vid : UInt16) :
    ∃ r, tagLoop b depth vid off = some r ∧ ∀ v end', r = some (v, end') → end' + 2 ≤ b.length := by
  induction depth generalizing vid off with
  | zero =>
    refine ⟨some (vid, off), rfl, fun v end' hr => ?_⟩
    cases hr
    exact hoff
  | succ depth ih =>
    rw [tagLoop, be16At_eq hoff, Option.bind_eq_bind, Option.bind_some]
    split_ifs with htag hlen hvid
    · refine ⟨some (vid, off), rfl, fun v end' hr => ?_⟩
      cases hr
      exact hoff
    · exact ⟨none, rfl, by simp⟩
    · rw [be16At_eq (show off + 2 + 2 ≤ b.length by omega), Option.bind_some]
      exact ih (by omega) _
    · exact ih (by omega) _

/-- On the frame with a tag in its bytes, the loop behind that tag is the loop over the bare frame. -/
theorem tagLoop_insertTag (hb : 12 ≤ b.length) (hoff : 12 ≤ off) (depth : ℕ) (vid : UInt16) :
    tagLoop (insertTag b tci) depth vid (off + 4) =
      (tagLoop b depth vid off).map (Option.map fun r => (r.1, r.2 + 4)) := by
  induction depth generalizing vid off with
  | zero => rfl
  | succ depth ih =>
    have htci : be16At (insertTag b tci) (off + 4 + 2) = be16At b (off + 2) := by
      rw [show off + 4 + 2 = off + 2 + 4 by omega, be16At_insertTag_add hb (by omega)]
    have hlen : (insertTag b tci).length < off + 4 + 4 + 2 ↔ b.length < off + 4 + 2 := by
      rw [length_insertTag]
      omega
    rw [tagLoop, tagLoop, be16At_insertTag_add hb hoff]
    cases be16At b off with
    | none => rfl
    | some et =>
      simp only [Option.bind_eq_bind, Option.bind_some, htci, hlen]
      split_ifs with htag hcut hvid
      · rfl
      · rfl
      · cases be16At b (off + 2) with
        | none => rfl
        | some inner => exact ih (by omega) _
      · exact ih (by omega) _

/-- The loop does not go back. -/
theorem tagLoop_off {r : UInt16 × ℕ} (h : tagLoop b depth vid off = some (some r)) : off ≤ r.2 := by
  induction depth generalizing vid off with
  | zero =>
    cases h
    exact le_refl _
  | succ depth ih =>
    rw [tagLoop] at h
    cases het : be16At b off with
    | none =>
      rw [het] at h
      cases h
    | some et =>
      rw [het, Option.bind_eq_bind, Option.bind_some] at h
      split_ifs at h with htag hcut hvid
      · cases h
        exact le_refl _
      · cases h
      · cases htci : be16At b (off + 2) with
        | none =>
          rw [htci] at h
          cases h
        | some inner =>
          rw [htci, Option.bind_some] at h
          have := ih h
          omega
      · have := ih h
        omega

/-- A frame with at most one tag in its bytes is read to the same place one tag less deep. -/
theorem tagLoop_oneTag (hone : OneTag b) (hlen : 14 ≤ b.length) (vid : UInt16) :
    tagLoop b 2 vid 12 = tagLoop b 1 vid 12 := by
  have hbehind : ∀ et ∈ be16At b 12, isVlanTag et → 18 ≤ b.length → ∀ v,
      tagLoop b 1 v 16 = some (some (v, 16)) := by
    intro et het htag hlong v
    have hinner := be16At_eq (show 16 + 2 ≤ b.length by omega)
    have hnot := hone et het _ hinner htag
    rw [tagLoop, hinner, Option.bind_eq_bind, Option.bind_some, if_pos (by simpa using hnot)]
    rfl
  have het := be16At_eq (show 12 + 2 ≤ b.length by omega)
  rw [tagLoop, het, Option.bind_eq_bind, Option.bind_some]
  conv_rhs => rw [tagLoop, het, Option.bind_eq_bind, Option.bind_some]
  split_ifs with htag hcut hvid
  · rfl
  · rfl
  · rw [be16At_eq (show 12 + 2 + 2 ≤ b.length by omega), Option.bind_some, Option.bind_some]
    exact hbehind _ het (by simpa using htag) (by omega) _
  · exact hbehind _ het (by simpa using htag) (by omega) _

/-- The VIDs behind an offset, past a tag. -/
theorem tagVids_drop (hlen : off + 4 ≤ b.length) (htag : isVlanTag (u16be b[off] b[off + 1])) :
    tagVids (b.drop off) = tciVid (u16be b[off + 2] b[off + 3]) :: tagVids (b.drop (off + 4)) := by
  rw [List.drop_eq_getElem_cons (show off < b.length by omega),
    List.drop_eq_getElem_cons (show off + 1 < b.length by omega),
    List.drop_eq_getElem_cons (show off + 1 + 1 < b.length by omega),
    List.drop_eq_getElem_cons (show off + 1 + 1 + 1 < b.length by omega), tagVids, if_pos htag]

/-- A VID the loop ends with is that of the outermost tag that has one. -/
theorem tagLoop_vid (hoff : off + 2 ≤ b.length) {v : UInt16} {end' : ℕ}
    (h : tagLoop b depth vid off = some (some (v, end'))) (hv : v ≠ 0) :
    (vid :: tagVids (b.drop off)).find? (· ≠ 0) = some v := by
  induction depth generalizing vid off with
  | zero =>
    cases h
    exact List.find?_cons_of_pos (by simpa using hv)
  | succ depth ih =>
    rw [tagLoop, be16At_eq hoff, Option.bind_eq_bind, Option.bind_some] at h
    split_ifs at h with htag hcut hvid
    · cases h
      exact List.find?_cons_of_pos (by simpa using hv)
    · cases h
    · rw [be16At_eq (show off + 2 + 2 ≤ b.length by omega), Option.bind_some] at h
      rw [hvid, List.find?_cons_of_neg (by simp), tagVids_drop (by omega) (by simpa using htag)]
      exact ih (by omega) h
    · have hrest := ih (by omega) h
      rw [List.find?_cons_of_pos (by simpa using hvid)] at hrest ⊢
      exact hrest

/-! ## The classifier -/

/-- No byte at or past the end of the buffer is read. -/
theorem topoClassify_inside (buf : Option (List UInt8)) (valid : Bool) (tci : UInt16) :
    ∃ answer, topoClassify buf valid tci = some answer := by
  cases buf with
  | none => exact ⟨_, rfl⟩
  | some b =>
    rw [topoClassify]
    split_ifs with hshort
    · exact ⟨_, rfl⟩
    · obtain ⟨r, hloop, hend⟩ := tagLoop_inside (show 12 + 2 ≤ b.length by omega) 2 (kernelVid valid tci)
      rw [hloop, Option.bind_some]
      cases r with
      | none => exact ⟨_, rfl⟩
      | some r =>
        rw [topoBehindTags, be16At_eq (hend r.1 r.2 rfl)]
        exact ⟨_, rfl⟩

/-- A tag in the bytes is as good as the same tag in the metadata. -/
theorem topoClassify_insertTag (hb : 12 ≤ b.length) (hone : OneTag b) (tci ignored : UInt16) :
    topoClassify (some (insertTag b tci)) false ignored = topoClassify (some b) true tci := by
  have hlen := length_insertTag b tci
  have hloop : tagLoop (insertTag b tci) 2 0 12 = if b.length < 14 then some none
      else tagLoop (insertTag b tci) 1 (tciVid tci) (12 + 4) := by
    have hcut : (insertTag b tci).length < 12 + 4 + 2 ↔ b.length < 14 := by omega
    rw [tagLoop, be16At_insertTag_type hb, Option.bind_eq_bind, Option.bind_some, if_neg (by simp [isVlanTag]),
      be16At_insertTag_tci hb, Option.bind_some, if_pos rfl]
    simp only [hcut]
    rfl
  rw [topoClassify, topoClassify, if_neg (by omega)]
  show (tagLoop (insertTag b tci) 2 0 12).bind _ = _
  rw [hloop]
  by_cases hshort : b.length < 14
  · rw [if_pos hshort, if_pos hshort]
    rfl
  · rw [if_neg hshort, if_neg hshort, tagLoop_insertTag hb (by omega), tagLoop_oneTag hone (by omega)]
    show ((tagLoop b 1 (tciVid tci) 12).map _).bind _ = (tagLoop b 1 (tciVid tci) 12).bind _
    cases hres : tagLoop b 1 (tciVid tci) 12 with
    | none => rfl
    | some r =>
      cases r with
      | none => rfl
      | some r =>
        have hoff : 12 ≤ r.2 := tagLoop_off hres
        simp only [Option.map_some, Option.bind_some, topoBehindTags, be16At_insertTag_add hb hoff]

/-- The VID of a tagged frame. -/
theorem topoClassify_vid {buf : Option (List UInt8)} {valid : Bool} {kind : TopoKind}
    (h : topoClassify buf valid tci = some (kind, vid)) (hkind : kind = .tagged ∨ kind = .taggedOther) :
    vid ≠ 0 ∧ ∃ b, buf = some b ∧ (frameVids b valid tci).find? (· ≠ 0) = some vid := by
  have hverdict : ∀ et v, topoVerdict et v = (kind, vid) → v = vid ∧ vid ≠ 0 := by
    intro et v hv
    unfold topoVerdict at hv
    split_ifs at hv with htype hvid hvid <;> cases hv
    · exact ⟨rfl, hvid⟩
    · simp at hkind
    · exact ⟨rfl, hvid⟩
    · simp at hkind
  cases buf with
  | none =>
    cases h
    simp at hkind
  | some b =>
    rw [topoClassify] at h
    split_ifs at h with hshort
    · cases h
      simp at hkind
    · obtain ⟨r, hloop, hend⟩ := tagLoop_inside (show 12 + 2 ≤ b.length by omega) 2 (kernelVid valid tci)
      rw [hloop, Option.bind_some] at h
      cases r with
      | none =>
        cases h
        simp at hkind
      | some r =>
        rw [topoBehindTags, be16At_eq (hend r.1 r.2 rfl), Option.map_some, Option.some.injEq] at h
        obtain ⟨rfl, hne⟩ := hverdict _ _ h
        refine ⟨hne, b, rfl, ?_⟩
        have hfirst := tagLoop_vid (by omega) hloop hne
        cases valid with
        | true => exact hfirst
        | false => rwa [kernelVid, if_neg (by simp), List.find?_cons_of_neg (by simp)] at hfirst

/-- A frame is classified the same whether its outer tag is in its bytes or was stripped into
metadata; a tagged frame has the VID of its outermost tag with one; and no byte past the end of the
buffer is read. -/
theorem topo_classify_laws :
    (∀ b tci ignored, 12 ≤ b.length → OneTag b →
      topoClassify (some (insertTag b tci)) false ignored = topoClassify (some b) true tci) ∧
    (∀ buf valid tci kind vid, topoClassify buf valid tci = some (kind, vid) →
      kind = .tagged ∨ kind = .taggedOther →
        vid ≠ 0 ∧ ∃ b, buf = some b ∧ (frameVids b valid tci).find? (· ≠ 0) = some vid) ∧
    ∀ buf valid tci, ∃ answer, topoClassify buf valid tci = some answer :=
  ⟨fun _ tci ignored hb hone => topoClassify_insertTag hb hone tci ignored,
    fun _ _ _ _ _ h hkind => topoClassify_vid h hkind, topoClassify_inside⟩

end Libreac
