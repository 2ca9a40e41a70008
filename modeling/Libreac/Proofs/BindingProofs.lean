import Libreac.Proofs.CtrlProofs
import Libreac.Proofs.DeskProofs

/-!
# Proofs: the peer binding

Once a box is bound, a frame of any other source leaves the pacer as it was. The identity page has a
filter of its own, which opens before the box has declared itself; until then a foreign identity
record is folded in, and nothing else of the pacer moves.
-/

namespace Libreac

variable {env : Env} {p : Pacer} {bytes : List UInt8}

/-! ## One frame -/

/-- A frame of another source than the bound box, and no JOIN that a grant window takes. -/
structure ForeignFrame (p : Pacer) (bytes : List UInt8) : Prop where
  bound : p.master.state = .granting ∨ p.master.state = .established
  box : p.master.boxMac ≠ noMac
  src : macAt bytes 6 ≠ p.master.boxMac
  not_join : p.master.state = .granting →
    ∀ parsed, classifyBoxFrame (cleanFrame bytes) p.src ≠ some (parsed, .join)

/-- The frame carries an identity record, or a fragment of one. -/
def isIdentityFrame (bytes : List UInt8) : Bool :=
  (identityReply (cleanFrame bytes)).isSome || isIdentityFragment (cleanFrame bytes)

/-- The binding refuses the frame. -/
theorem ForeignFrame.refused (h : ForeignFrame p bytes) {parsed : CtrlParsed} {ev : RxEvent}
    (hc : classifyBoxFrame (cleanFrame bytes) p.src = some (parsed, ev)) :
    p.master.peerAccepts parsed.src ev = false := by
  have hsrc : parsed.src ≠ p.master.boxMac := by
    rw [classifyBoxFrame_src hc, macAt_cleanFrame _ (by omega)]
    exact h.src
  unfold Master.peerAccepts
  rw [if_neg, if_neg]
  · rcases h.bound with hs | hs
    · have hev : ev ≠ .join := by
        rintro rfl
        exact h.not_join hs parsed hc
      simp [hev]
    · simp [hs]
  · rintro (hnone | hsame)
    · exact h.box hnone
    · exact hsrc hsame
  · rintro ⟨hg, he⟩
    exact h.bound.elim hg he

/-- It reaches the identity page, and nothing else. -/
theorem ForeignFrame.ingest (h : ForeignFrame p bytes) (env : Env) :
    rxIngest env p bytes = (rxIdentityPass p (cleanFrame bytes), []) := by
  rcases rxIngest_cases env p bytes with ⟨heq, -⟩ | ⟨parsed, ev, hc, hacc, -⟩
  · exact heq
  · rw [h.refused hc] at hacc
    cases hacc

/-- The identity page is closed to it once the box has declared itself. -/
theorem ForeignFrame.unchanged (h : ForeignFrame p bytes) (env : Env)
    (hclosed : p.master.hasBox = true ∨ isIdentityFrame bytes = false) :
    rxIngest env p bytes = (p, []) := by
  rw [h.ingest env]
  rcases hclosed with hbox | hplain
  · have hours : p.fromOurs (cleanFrame bytes) = false := by
      unfold Pacer.fromOurs
      rw [macAt_cleanFrame _ (by omega)]
      simp [hbox, h.src, h.box]
    simp [rxIdentityPass, hours]
  · unfold isIdentityFrame at hplain
    simp only [Bool.or_eq_false_iff, Option.isSome_eq_false_iff, Option.isNone_iff_eq_none] at hplain
    rw [rxIdentityPass_plain p hplain.1 hplain.2]

/-! ## Runs -/

/-- The runs on `is` from `p` and on `js` from `q` differ only by foreign frames: those that come in
once the box has declared itself, or that are not about its identity. -/
inductive DiffersByForeign (env : Env) :
    Pacer → Pacer → List PacerInput → List PacerInput → Prop where
  | nil (p q : Pacer) : DiffersByForeign env p q [] []
  | both {p q : Pacer} {is js : List PacerInput} (i : PacerInput)
      (h : DiffersByForeign env (pacerStep env p i).1 (pacerStep env q i).1 is js) :
      DiffersByForeign env p q (i :: is) (i :: js)
  | left {p q : Pacer} {is js : List PacerInput} {bytes : List UInt8} (hf : ForeignFrame p bytes)
      (hc : p.master.hasBox = true ∨ isIdentityFrame bytes = false)
      (h : DiffersByForeign env (pacerStep env p (.frame bytes)).1 q is js) :
      DiffersByForeign env p q (.frame bytes :: is) js
  | right {p q : Pacer} {is js : List PacerInput} {bytes : List UInt8} (hf : ForeignFrame q bytes)
      (hc : q.master.hasBox = true ∨ isIdentityFrame bytes = false)
      (h : DiffersByForeign env p (pacerStep env q (.frame bytes)).1 is js) :
      DiffersByForeign env p q is (.frame bytes :: js)

/-- What was put on the wire in these steps. -/
def sentOf (log : List PacerEvent) : List Sent := log.filterMap (·.out.sent)

theorem sentOf_cons (e : PacerEvent) (log : List PacerEvent) :
    sentOf (e :: log) = e.out.sent.toList ++ sentOf log := by
  unfold sentOf
  rw [List.filterMap_cons]
  cases e.out.sent <;> rfl

theorem ForeignFrame.trace_cons (h : ForeignFrame p bytes) (env : Env)
    (hclosed : p.master.hasBox = true ∨ isIdentityFrame bytes = false) (is : List PacerInput) :
    (pacerStep env p (.frame bytes)).1 = p ∧
      sentOf ((pacerMachine env).trace p (.frame bytes :: is))
        = sentOf ((pacerMachine env).trace p is) := by
  have hstep : pacerStep env p (.frame bytes) = (p, {}) := by
    simp only [pacerStep, h.unchanged env hclosed]
  refine ⟨by rw [hstep], ?_⟩
  simp [sentOf, pacerMachine, hstep]

theorem DiffersByForeign.agree {q : Pacer} {is js : List PacerInput}
    (h : DiffersByForeign env p q is js) (hpq : p = q) :
    (pacerMachine env).run p is = (pacerMachine env).run q js ∧
      sentOf ((pacerMachine env).trace p is) = sentOf ((pacerMachine env).trace q js) := by
  induction h with
  | nil =>
    subst hpq
    exact ⟨rfl, rfl⟩
  | both i _ ih =>
    subst hpq
    obtain ⟨hrun, hsent⟩ := ih rfl
    refine ⟨hrun, ?_⟩
    rw [Reactive.Machine.trace_cons, Reactive.Machine.trace_cons, sentOf_cons, sentOf_cons]
    exact congrArg (_ ++ ·) hsent
  | left hf hc _ ih =>
    obtain ⟨hstep, hsent⟩ := hf.trace_cons env hc _
    obtain ⟨hrun, hsent'⟩ := ih (hstep.trans hpq)
    rw [hstep] at hrun hsent'
    rw [hsent, Reactive.Machine.run_cons]
    exact ⟨(congrArg (fun s => (pacerMachine env).run s _) hstep).trans hrun, hsent'⟩
  | right hf hc _ ih =>
    obtain ⟨hstep, hsent⟩ := hf.trace_cons env hc _
    obtain ⟨hrun, hsent'⟩ := ih (hpq.trans hstep.symm)
    rw [hstep] at hrun hsent'
    rw [hsent, Reactive.Machine.run_cons]
    exact ⟨hrun.trans (congrArg (fun s => (pacerMachine env).run s _) hstep.symm), hsent'⟩

/-- The binding is non-interference, up to the identity page of a box that has not declared itself. -/
theorem peer_binding (env : Env) :
    (∀ p bytes, ForeignFrame p bytes →
      (p.master.hasBox = true ∨ isIdentityFrame bytes = false → (rxIngest env p bytes).1 = p) ∧
      ∃ ident frag complete, (rxIngest env p bytes).1 = { p with
        rxIdentity := ident, rxIdentityFrag := frag
        master := { p.master with identityComplete := complete } }) ∧
    (∀ p is js, DiffersByForeign env p p is js →
      sentOf ((pacerMachine env).trace p is) = sentOf ((pacerMachine env).trace p js)) := by
  refine ⟨fun p bytes h => ⟨fun hclosed => ?_, ?_⟩, fun p is js h => (h.agree rfl).2⟩
  · rw [h.unchanged env hclosed]
  · rw [h.ingest env]
    exact rxIdentityPass_eq p (cleanFrame bytes)

/-- The desk with the stage box bound and declared. -/
def boundDesk : Pacer :=
  { pacerOpen deskEnv deskCfg with
    master := { (pacerOpen deskEnv deskCfg).master with
      state := .established, boxMac := stageBox, alloc := stageBoxAlloc } }

/-- The firmware record of a box. -/
def identityFrame (src : Mac) : List UInt8 :=
  boxFrame src ([0x04, 0x03, 0x00, 0x16, 0x00, 0x02, 0x00, 0xfe, 0x11, 0xf0, 0x41, 0x0a, 0x00, 0x00,
    0x12, 0x12, 0x05, 0x00, 0x00, 0x00, 0x01, 0x00, 0x00, 0x01, 0x79, 0xf7] ++ List.replicate 5 0x00)

theorem boundDesk_foreign : ForeignFrame boundDesk (identityFrame otherBox) :=
  ⟨.inr rfl, by decide, by decide +kernel, nofun⟩

theorem peer_binding_desk :
    ForeignFrame boundDesk (identityFrame otherBox) ∧
    (rxIngest deskEnv boundDesk (identityFrame otherBox)).1 = boundDesk ∧
    sentOf ((pacerMachine deskEnv).trace boundDesk [.frame (identityFrame otherBox), .slot])
      = sentOf ((pacerMachine deskEnv).trace boundDesk [.slot]) := by
  have hbox : boundDesk.master.hasBox = true := by decide
  refine ⟨boundDesk_foreign, ?_, ?_⟩
  · exact ((peer_binding deskEnv).1 boundDesk (identityFrame otherBox) boundDesk_foreign).1
      (.inl hbox)
  · refine (peer_binding deskEnv).2 boundDesk _ _ (.left boundDesk_foreign (.inl hbox) ?_)
    rw [(boundDesk_foreign.trace_cons deskEnv (.inl hbox) []).1]
    exact .both .slot (.nil _ _)

/-- Before the stage box has declared itself, another box's firmware is taken for its own. -/
theorem foreign_identity_taken : ∃ n,
    let p := (pacerMachine deskEnv).run (pacerOpen deskEnv deskCfg)
      (List.replicate n .slot ++ [.frame (joinFrame stageBox)])
    ForeignFrame p (identityFrame otherBox) ∧
      (rxIngest deskEnv p (identityFrame otherBox)).1.rxIdentity ≠ p.rxIdentity := by
  obtain ⟨n, -, hhunt, hsrc, -⟩ := (rested_open deskEnv deskCfg (by decide)).hunts deskEnv
  obtain ⟨hjoin, hports⟩ := box_joins stageBox (.inl rfl)
  obtain ⟨hs, hmac, hbox, hfw, hsrc'⟩ := hhunt.joins
    (by rw [hsrc]; exact hjoin) hports deskEnv
  refine ⟨n, ?_⟩
  dsimp only
  rw [Reactive.Machine.run_append]
  generalize hp : (pacerMachine deskEnv).run ((pacerMachine deskEnv).run (pacerOpen deskEnv deskCfg)
    (List.replicate n .slot)) [.frame (joinFrame stageBox)] = p
  replace hp : (pacerStep deskEnv ((pacerMachine deskEnv).run (pacerOpen deskEnv deskCfg)
    (List.replicate n .slot)) (.frame (joinFrame stageBox))).1 = p := hp
  rw [hp] at hs hmac hbox hfw hsrc'
  have hclass : classifyBoxFrame (cleanFrame (identityFrame otherBox)) deskMac = none := by
    decide +kernel
  have hour : p.src = deskMac := hsrc'.trans hsrc
  have hforeign : ForeignFrame p (identityFrame otherBox) := by
    refine ⟨.inl hs, ?_, ?_, ?_⟩
    · rw [hmac]
      decide
    · rw [hmac]
      decide +kernel
    · intro _ parsed
      rw [hour, hclass]
      nofun
  have hreply : identityReply (cleanFrame (identityFrame otherBox)) = some (0, [1, 0, 0, 1]) := by
    decide +kernel
  have hours : p.fromOurs (cleanFrame (identityFrame otherBox)) = true := by
    simp [Pacer.fromOurs, hbox]
  refine ⟨hforeign, ?_⟩
  rw [hforeign.ingest deskEnv, rxIdentityPass, hours, hreply]
  intro heq
  have hfw' := congrArg Identity.hasFw heq
  rw [hfw] at hfw'
  cases hfw'

end Libreac
