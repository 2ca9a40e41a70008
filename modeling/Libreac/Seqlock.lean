import Libreac.Machine
import Mathlib.Data.List.FinRange
import Mathlib.Data.List.Infix
import Mathlib.Data.UInt
import Mathlib.Logic.Function.Basic
import Mathlib.Tactic.Ring

/-!
# Sequence locks

One thread writes a piece of data and another reads it, and no lock is between them. The writer makes the
sequence number odd, stores the data part by part and makes the number even again. The reader takes the
number, copies the data part by part and keeps the copy only if the number is even and the same as before.
Each load and each store is a step of its own, and the steps of the two interleave freely. There is one
reader, and the loads and stores of a thread are taken in program order: a program has to have the fences
that keep the number's accesses around those of the data.

The data stand for a register that changes at once (`Protocol.value`): a copy that is kept is what the
register held when the reader took the number (`Protocol.kept`). The number has 32 bits, so this is so
unless it comes round during one read.
-/

namespace Seqlock

open Reactive (Event Machine)

/-- What the two sides do: the stores of a request to the writer, given the data as it stands (`none` where
nothing is published), and the steps in which the reader copies, given the data and the copy so far. -/
structure Protocol (π ρ : Type) where
  stores : ρ → π → Option (List (π → π))
  copies : List (π → π → π)

/-- The shared number and data; the writer with the number it began at and the stores left; the reader with
the number it took, the copy so far and the copying left. -/
structure State (π : Type) where
  seq : UInt32 := 0
  data : π
  writer : Option (UInt32 × List (π → π)) := none
  reader : Option (UInt32 × π × List (π → π → π)) := none

/-- A step of one side; the buffer a reader copies to holds whatever it held. -/
inductive Move (π ρ : Type) where
  | request (r : ρ)
  | store
  | load (out : π)
  | copy

/-- A step of the two: it answers a copy that is kept. -/
abbrev SeqStep (π ρ : Type) := Event (State π) (Move π ρ) (Option π)

namespace Protocol

variable {π ρ : Type} (P : Protocol π ρ)

/-- One step, and the copy if one is kept. A side that is busy does not begin anew. -/
def step (s : State π) : Move π ρ → State π × Option π
  | .request r =>
    match s.writer, P.stores r s.data with
    | none, some fs => ({ s with seq := s.seq + 1, writer := some (s.seq, fs) }, none)
    | _, _ => (s, none)
  | .store =>
    match s.writer with
    | none => (s, none)
    | some (q, []) => ({ s with seq := q + 2, writer := none }, none)
    | some (q, f :: fs) => ({ s with data := f s.data, writer := some (q, fs) }, none)
  | .load out =>
    match s.reader with
    | none => if s.seq &&& 1 = 1 then (s, none) else ({ s with reader := some (s.seq, out, P.copies) }, none)
    | some _ => (s, none)
  | .copy =>
    match s.reader with
    | none => (s, none)
    | some (q, out, []) => ({ s with reader := none }, if s.seq = q then some out else none)
    | some (q, out, c :: cs) => ({ s with reader := some (q, c s.data out, cs) }, none)

/-- The two sides, in any order of their steps. -/
def machine : Machine (State π) (Move π ρ) (Option π) := ⟨P.step⟩

@[simp] theorem machine_step (s : State π) (m : Move π ρ) : P.machine.step s m = P.step s m := rfl

/-! ## The register behind it -/

/-- The data behind a list of stores. -/
def stored (fs : List (π → π)) (d : π) : π := fs.foldl (fun d f => f d) d

/-- The copy of data that stand still. -/
def copied (cs : List (π → π → π)) (d out : π) : π := cs.foldl (fun out c => c d out) out

/-- A request, all at once. -/
def apply (d : π) (r : ρ) : π := stored ((P.stores r d).getD []) d

/-- Request after request. -/
def value (d : π) (rs : List ρ) : π := rs.foldl P.apply d

/-- The request a step begins with. -/
def begun (e : SeqStep π ρ) : Option ρ :=
  match e.input with
  | .request r => if e.pre.writer.isNone ∧ (P.stores r e.pre.data).isSome then some r else none
  | _ => none

/-- The requests begun so far. -/
def requests (log : List (SeqStep π ρ)) : List ρ := log.filterMap P.begun

/-- The request a step makes, if the writer is there to take it. -/
def offered (e : SeqStep π ρ) : Option ρ :=
  match e.input with
  | .request r => if e.pre.writer.isNone then some r else none
  | _ => none

/-- The requests made so far, those that published nothing among them. -/
def calls (log : List (SeqStep π ρ)) : List ρ := log.filterMap offered

end Protocol

/-- A read begins with this step. -/
def Loads {π ρ : Type} (e : SeqStep π ρ) : Prop :=
  e.pre.reader = none ∧ e.post.reader ≠ none

namespace Protocol

variable {π ρ : Type} {P : Protocol π ρ} {d₀ : π} {log : List (SeqStep π ρ)}
  {s : State π}

theorem requests_append (log log' : List (SeqStep π ρ)) :
    P.requests (log ++ log') = P.requests log ++ P.requests log' := List.filterMap_append

theorem value_concat (d : π) (rs : List ρ) (r : ρ) : P.value d (rs ++ [r]) = P.apply (P.value d rs) r := by
  simp [value]

theorem copied_concat (cs : List (π → π → π)) (c : π → π → π) (d out : π) :
    copied (cs ++ [c]) d out = c d (copied cs d out) := by
  simp [copied]

theorem copied_append (cs cs' : List (π → π → π)) (d out : π) :
    copied (cs ++ cs') d out = copied cs' d (copied cs d out) := List.foldl_append

theorem stored_append (fs fs' : List (π → π)) (d : π) : stored (fs ++ fs') d = stored fs' (stored fs d) :=
  List.foldl_append

/-! ## What a step does -/

/-- A step of either side, by what it does. -/
inductive Moved (P : Protocol π ρ) (s : State π) : Move π ρ → State π → Option π → Prop where
  | rests {m : Move π ρ} (hbegun : P.begun (P.machine.event s m) = none) : Moved P s m s none
  | begins {r : ρ} {fs : List (π → π)} (hw : s.writer = none) (hfs : P.stores r s.data = some fs) :
      Moved P s (.request r) { s with seq := s.seq + 1, writer := some (s.seq, fs) } none
  | stores {q : UInt32} {f : π → π} {fs : List (π → π)} (hw : s.writer = some (q, f :: fs)) :
      Moved P s .store { s with data := f s.data, writer := some (q, fs) } none
  | ends {q : UInt32} (hw : s.writer = some (q, [])) : Moved P s .store { s with seq := q + 2, writer := none } none
  | loads {out : π} (hr : s.reader = none) (heven : s.seq &&& 1 ≠ 1) :
      Moved P s (.load out) { s with reader := some (s.seq, out, P.copies) } none
  | copies {q : UInt32} {out : π} {c : π → π → π} {cs : List (π → π → π)} (hr : s.reader = some (q, out, c :: cs)) :
      Moved P s .copy { s with reader := some (q, c s.data out, cs) } none
  | checks {q : UInt32} {out : π} (hr : s.reader = some (q, out, [])) :
      Moved P s .copy { s with reader := none } (if s.seq = q then some out else none)

theorem step_moved (s : State π) (m : Move π ρ) : P.Moved s m (P.step s m).1 (P.step s m).2 := by
  cases m with
  | request r =>
    cases hw : s.writer with
    | some w =>
      have hbegun : P.begun (P.machine.event s (.request r)) = none := by simp [begun, hw]
      simp only [step, hw]
      exact .rests hbegun
    | none =>
      cases hfs : P.stores r s.data with
      | none =>
        have hbegun : P.begun (P.machine.event s (.request r)) = none := by simp [begun, hfs]
        simp only [step, hw, hfs]
        exact .rests hbegun
      | some fs =>
        simp only [step, hw, hfs]
        exact .begins hw hfs
  | store =>
    unfold step
    rcases hw : s.writer with _ | ⟨q, _ | ⟨f, fs⟩⟩
    · exact .rests rfl
    · exact .ends hw
    · exact .stores hw
  | load out =>
    unfold step
    cases hr : s.reader with
    | some r => exact .rests rfl
    | none =>
      dsimp only
      split_ifs with hodd
      · exact .rests rfl
      · exact .loads hr hodd
  | copy =>
    unfold step
    rcases hr : s.reader with _ | ⟨q, out, _ | ⟨c, cs⟩⟩
    · exact .rests rfl
    · exact .checks hr
    · exact .copies hr

/-! ## The writer -/

/-- The writer after a log: idle, the data are the register and the number counts its changes twice; in the
middle of a request, what is left to store makes them so. -/
def WriterOk (P : Protocol π ρ) (d₀ : π) (log : List (SeqStep π ρ)) (s : State π) :
    Prop :=
  match s.writer with
  | none => s.seq = UInt32.ofNat (2 * (P.requests log).length) ∧ s.data = P.value d₀ (P.requests log)
  | some (q, fs) => 0 < (P.requests log).length ∧ s.seq = q + 1 ∧
      q + 2 = UInt32.ofNat (2 * (P.requests log).length) ∧ stored fs s.data = P.value d₀ (P.requests log)

/-- The register changes where a request begins, and only there. -/
theorem requests_concat (s : State π) (m : Move π ρ) :
    P.requests (log ++ [P.machine.event s m]) = P.requests log ++ (P.begun (P.machine.event s m)).toList := by
  rw [requests_append]
  cases h : P.begun (P.machine.event s m) <;> simp [requests, h]

theorem two_mul_succ (n : ℕ) : UInt32.ofNat (2 * n) + 2 = UInt32.ofNat (2 * (n + 1)) := by
  rw [Nat.mul_add, UInt32.ofNat_add]
  rfl

theorem WriterOk.step (h : P.WriterOk d₀ log s) (m : Move π ρ) :
    P.WriterOk d₀ (log ++ [P.machine.event s m]) (P.step s m).1 := by
  have hmoved := P.step_moved s m
  have hrs : P.requests (log ++ [P.machine.event s m]) =
      P.requests log ++ (P.begun (P.machine.event s m)).toList := P.requests_concat s m
  generalize (P.step s m).1 = s', (P.step s m).2 = out at hmoved
  unfold WriterOk at h ⊢
  cases hmoved with
  | rests hbegun =>
    rw [hrs, hbegun, Option.toList_none, List.append_nil]
    exact h
  | @begins r fs hw hfs =>
    have hbegun : P.begun (P.machine.event s (.request r)) = some r := by simp [begun, hw, hfs]
    rw [hw] at h
    rw [hrs, hbegun, Option.toList_some, value_concat, List.length_append, List.length_singleton]
    obtain ⟨hseq, hdata⟩ := h
    refine ⟨by omega, rfl, ?_, ?_⟩
    · rw [hseq]
      exact two_mul_succ _
    · rw [← hdata, apply, hfs]
      rfl
  | stores hw =>
    rw [hw] at h
    rw [hrs]
    simpa [begun, stored] using h
  | ends hw =>
    rw [hw] at h
    rw [hrs]
    simpa [begun, stored] using h.2.2
  | loads | copies | checks =>
    rw [hrs]
    simpa [begun] using h

/-- A call that publishes nothing leaves the register as it is. -/
theorem WriterOk.value_calls (h : P.WriterOk d₀ log s)
    (hcalls : P.value d₀ (calls log) = P.value d₀ (P.requests log)) (m : Move π ρ) :
    P.value d₀ (calls (log ++ [P.machine.event s m])) = P.value d₀ (P.requests (log ++ [P.machine.event s m])) := by
  have hconcat : calls (log ++ [P.machine.event s m]) = calls log ++ (offered (P.machine.event s m)).toList := by
    unfold calls
    rw [List.filterMap_append]
    cases hoff : offered (P.machine.event s m) <;> simp [hoff]
  rw [hconcat, requests_concat]
  cases m with
  | store | load | copy => simpa [offered, begun] using hcalls
  | request r =>
    cases hw : s.writer with
    | some w => simpa [offered, begun, hw] using hcalls
    | none =>
      simp only [WriterOk, hw] at h
      cases hfs : P.stores r s.data with
      | some fs => simp [offered, begun, hw, hfs, value_concat, hcalls]
      | none =>
        have hkeeps : P.apply s.data r = s.data := by simp [apply, hfs, stored]
        simp [offered, begun, hw, hfs, value_concat, hcalls, ← h.2, hkeeps]

/-- An even number is that of an idle writer. -/
theorem WriterOk.idle_of_even (h : P.WriterOk d₀ log s) (heven : s.seq &&& 1 ≠ 1) : s.writer = none := by
  cases hw : s.writer with
  | none => rfl
  | some w =>
    obtain ⟨q, fs⟩ := w
    simp only [WriterOk, hw] at h
    obtain ⟨-, hseq, hq, -⟩ := h
    refine absurd ?_ heven
    have hq' := congrArg UInt32.toNat hq
    rw [UInt32.toNat_add, UInt32.toNat_ofNat'] at hq'
    have hlt := q.toNat_lt
    rw [hseq, ← UInt32.toNat_inj, UInt32.toNat_and, UInt32.toNat_add]
    simp only [UInt32.toNat_one, UInt32.reduceToNat, Nat.and_one_is_mod] at hq' ⊢
    omega

/-! ## The reader -/

/-- A read under way began with the step `l`, behind `before`: its number counts the requests before it, and
as long as none has begun since, the copy is of the data as they stood then. -/
structure Reading (P : Protocol π ρ) (d₀ : π) (log before after : List (SeqStep π ρ))
    (l : SeqStep π ρ) (s : State π) (q : UInt32) (out : π) (cs : List (π → π → π)) :
    Prop where
  log : log = before ++ l :: after
  began : Loads l ∧ P.begun l = none
  since : ∀ e ∈ after, ¬ Loads e
  number : q = UInt32.ofNat (2 * (P.requests before).length)
  copy : P.requests after = [] → s.writer = none ∧
    ∃ done out₀, P.copies = done ++ cs ∧ out = copied done (P.value d₀ (P.requests before)) out₀

/-- The reader after a log. -/
def ReaderOk (P : Protocol π ρ) (d₀ : π) (log : List (SeqStep π ρ)) (s : State π) :
    Prop :=
  ∀ q out cs, s.reader = some (q, out, cs) → ∃ before l after, P.Reading d₀ log before after l s q out cs

/-- The requests of the log are those before the read and those since. -/
theorem Reading.requests {before after : List (SeqStep π ρ)}
    {l : SeqStep π ρ} {q : UInt32} {out : π} {cs : List (π → π → π)}
    (h : P.Reading d₀ log before after l s q out cs) :
    P.requests log = P.requests before ++ P.requests after := by
  rw [h.log, requests_append]
  simp [Protocol.requests, h.began.2]

/-- A read goes on through a step that begins none, be it that the copy grew. -/
theorem Reading.next {before after : List (SeqStep π ρ)}
    {l : SeqStep π ρ} {q : UInt32} {out out' : π} {cs cs' : List (π → π → π)}
    (h : P.Reading d₀ log before after l s q out cs) {e : SeqStep π ρ} {s' : State π}
    (hloads : ¬ Loads e)
    (hcopy : P.requests after = [] → P.begun e = none → s'.writer = none ∧ ∃ done out₀, P.copies = done ++ cs' ∧
      out' = copied done (P.value d₀ (P.requests before)) out₀) :
    P.Reading d₀ (log ++ [e]) before (after ++ [e]) l s' q out' cs' := by
  refine ⟨by rw [h.log]; simp, h.began, ?_, h.number, ?_⟩
  · intro x hx
    rcases List.mem_append.mp hx with hx | hx
    · exact h.since x hx
    · rwa [List.mem_singleton.mp hx]
  · intro hnone
    rw [requests_append, List.append_eq_nil_iff] at hnone
    refine hcopy hnone.1 ?_
    cases hb : P.begun e with
    | none => rfl
    | some r => simp [Protocol.requests, hb] at hnone

theorem ReaderOk.step (hr : P.ReaderOk d₀ log s) (hw : P.WriterOk d₀ log s) (m : Move π ρ) :
    P.ReaderOk d₀ (log ++ [P.machine.event s m]) (P.step s m).1 := by
  have hmoved := P.step_moved s m
  have hpost : (P.machine.event s m).post = (P.step s m).1 := rfl
  -- A side that is reading does not begin to read.
  have hbusy : ∀ {r : UInt32 × π × List (π → π → π)}, s.reader = some r → ¬ Loads (P.machine.event s m) := by
    rintro r hsome ⟨hnone, -⟩
    rw [P.machine.event_pre, hsome] at hnone
    cases hnone
  intro q out cs hreader
  generalize hs' : (P.step s m).1 = s', (P.step s m).2 = answer at hmoved hreader
  cases hmoved with
  | rests _ =>
    obtain ⟨before, l, after, h⟩ := hr q out cs hreader
    exact ⟨before, l, _, h.next (hbusy hreader) fun hnone _ => h.copy hnone⟩
  | @begins r fs hidle hfs =>
    obtain ⟨before, l, after, h⟩ := hr q out cs hreader
    refine ⟨before, l, _, h.next (hbusy hreader) fun _ hbegun => ?_⟩
    simp [begun, hidle, hfs] at hbegun
  | stores hstores =>
    obtain ⟨before, l, after, h⟩ := hr q out cs hreader
    refine ⟨before, l, _, h.next (hbusy hreader) fun hnone _ => ?_⟩
    have hidle := (h.copy hnone).1
    rw [hstores] at hidle
    cases hidle
  | ends hends =>
    obtain ⟨before, l, after, h⟩ := hr q out cs hreader
    exact ⟨before, l, _, h.next (hbusy hreader) fun hnone _ => ⟨rfl, (h.copy hnone).2⟩⟩
  | @loads out₀ hnone heven =>
    have hidle := hw.idle_of_even heven
    simp only [WriterOk, hidle] at hw
    obtain ⟨rfl, rfl, rfl⟩ : s.seq = q ∧ out₀ = out ∧ P.copies = cs := by simpa using hreader
    refine ⟨log, P.machine.event s (.load out₀), [], rfl, ⟨⟨hnone, ?_⟩, rfl⟩, by simp, hw.1, fun _ => ?_⟩
    · rw [hpost, hs']
      exact Option.some_ne_none _
    · exact ⟨hidle, [], out₀, rfl, rfl⟩
  | @copies q₀ out₀ c cs₀ hsome =>
    obtain ⟨rfl, rfl, rfl⟩ : q₀ = q ∧ c s.data out₀ = out ∧ cs₀ = cs := by simpa using hreader
    obtain ⟨before, l, after, h⟩ := hr _ _ _ hsome
    refine ⟨before, l, _, h.next (hbusy hsome) fun hnone _ => ?_⟩
    obtain ⟨hidle, done, out₁, hcopies, hout⟩ := h.copy hnone
    -- The data have not moved since the read began.
    simp only [WriterOk, hidle] at hw
    rw [h.requests, hnone, List.append_nil] at hw
    refine ⟨hidle, done ++ [c], out₁, by rw [hcopies]; simp, ?_⟩
    rw [copied_concat, ← hw.2, hout, hw.2]
  | checks hsome => cases hreader

/-- The same number after fewer than `2 ^ 31` requests is the same count of them. -/
theorem WriterOk.same_number (h : P.WriterOk d₀ log s) {n : ℕ} (hseq : s.seq = UInt32.ofNat (2 * n))
    (hle : n ≤ (P.requests log).length) (hfew : (P.requests log).length < n + 2147483648) :
    (P.requests log).length = n := by
  unfold WriterOk at h
  have hnat := congrArg UInt32.toNat hseq
  rw [UInt32.toNat_ofNat'] at hnat
  cases hw : s.writer with
  | none =>
    rw [hw] at h
    have hcount := congrArg UInt32.toNat h.1
    rw [UInt32.toNat_ofNat'] at hcount
    omega
  | some w =>
    obtain ⟨q, fs⟩ := w
    rw [hw] at h
    have hodd := congrArg UInt32.toNat h.2.1
    have hcount := congrArg UInt32.toNat h.2.2.1
    rw [UInt32.toNat_add] at hodd
    rw [UInt32.toNat_add, UInt32.toNat_ofNat'] at hcount
    simp only [UInt32.toNat_one, UInt32.reduceToNat] at hodd hcount
    omega

/-- A copy that is kept is of the register as it stood when the read began, unless the number came round
meanwhile. -/
theorem kept {ms : List (Move π ρ)} {e : SeqStep π ρ} {out : π}
    (he : P.machine.StepOf { data := d₀ } ms log e) (hout : e.out = some out) :
    ∃ before l after, log = before ++ l :: after ∧ Loads l ∧ (∀ x ∈ after, ¬ Loads x) ∧
      ((P.requests after).length < 2147483648 → P.requests after = [] ∧
        ∃ out₀, out = copied P.copies (P.value d₀ (calls before)) out₀) := by
  have hinv : ∀ {log e}, P.machine.StepOf { data := d₀ } ms log e →
      (P.WriterOk d₀ log e.pre ∧ P.ReaderOk d₀ log e.pre ∧ P.value d₀ (calls log) = P.value d₀ (P.requests log)) ∧
        e = P.machine.event e.pre e.input := by
    intro log e he
    refine @Machine.trace_invariant_at _ _ _ P.machine
      (fun log s => P.WriterOk d₀ log s ∧ P.ReaderOk d₀ log s ∧ P.value d₀ (calls log) = P.value d₀ (P.requests log))
      (fun _ _ => True) { data := d₀ } ⟨⟨rfl, rfl⟩, by rintro q out cs ⟨⟩, rfl⟩ ?_ ms (fun _ _ _ => trivial) log e he
    intro log s m h _
    exact ⟨h.1.step m, h.2.1.step h.1 m, h.1.value_calls h.2.2 m⟩
  obtain ⟨⟨hw, hr, -⟩, heq⟩ := hinv he
  have hmoved := P.step_moved e.pre e.input
  rw [heq, P.machine.event_out, machine_step] at hout
  generalize (P.step e.pre e.input).1 = s', (P.step e.pre e.input).2 = answer at hmoved hout
  generalize e.input = m at hmoved
  cases hmoved with
  | rests | begins | stores | ends | loads | copies => cases hout
  | @checks q out' hreader =>
    obtain ⟨hseq, rfl⟩ : e.pre.seq = q ∧ out' = out := by simpa using hout
    obtain ⟨before, l, after, h⟩ := hr _ _ _ hreader
    refine ⟨before, l, after, h.log, h.began.1, h.since, ?_⟩
    intro hfew
    have hlen := congrArg List.length h.requests
    rw [List.length_append] at hlen
    have hsame := hw.same_number (hseq.trans h.number) (by omega) (by omega)
    have hnone : P.requests after = [] := List.length_eq_zero_iff.mp (by omega)
    obtain ⟨-, done, out₀, hcopies, rfl⟩ := h.copy hnone
    rw [List.append_nil] at hcopies
    have hload : before ++ [l] <+: log := ⟨after, by rw [h.log]; simp⟩
    have hcalls := (hinv (he.of_prefix P.machine hload)).1.2.2
    exact ⟨hnone, out₀, by rw [hcopies, hcalls]⟩

/-! ## Data in parts -/

section Parts

variable {τ α : Type} {n : ℕ}

/-- A part of the data, as it is read and as it is replaced. -/
structure Part (π τ : Type) where
  get : π → τ
  set : τ → π → π
  get_set : ∀ x d, get (set x d) = x
  set_set : ∀ x y d, set x (set y d) = set x d
  set_get : ∀ d, set (get d) d = d

/-- Copying steps of a part are copying steps of the whole. -/
def Part.copies (p : Part π τ) (cs : List (τ → τ → τ)) : List (π → π → π) :=
  cs.map fun c d out => p.set (c (p.get d) (p.get out)) out

/-- So are stores. -/
def Part.stores (p : Part π τ) (fs : List (τ → τ)) : List (π → π) := fs.map fun f d => p.set (f (p.get d)) d

theorem Part.copied_copies (p : Part π τ) (cs : List (τ → τ → τ)) (d out : π) :
    copied (p.copies cs) d out = p.set (copied cs (p.get d) (p.get out)) out := by
  induction cs generalizing out with
  | nil => exact (p.set_get out).symm
  | cons c cs ih =>
    change copied (p.copies cs) d (p.set (c (p.get d) (p.get out)) out) = _
    rw [ih, p.get_set, p.set_set]
    rfl

theorem Part.stored_stores (p : Part π τ) (fs : List (τ → τ)) (d : π) :
    stored (p.stores fs) d = p.set (stored fs (p.get d)) d := by
  induction fs generalizing d with
  | nil => exact (p.set_get d).symm
  | cons f fs ih =>
    change stored (p.stores fs) (p.set (f (p.get d)) d) = _
    rw [ih, p.get_set, p.set_set]
    rfl

/-- An array is copied cell by cell, from the first on; what a cell gets may depend on the copy so far. -/
def cellCopies (g : Fin n → (Fin n → α) → (Fin n → α) → α) : List ((Fin n → α) → (Fin n → α) → Fin n → α) :=
  (List.finRange n).map fun i d out => Function.update out i (g i d out)

/-- An array is stored cell by cell. -/
def cellStores (v : Fin n → α) : List ((Fin n → α) → Fin n → α) :=
  (List.finRange n).map fun i a => Function.update a i (v i)

/-- The copy is `t` if each cell gets its value of `t` where the cells before it have theirs. -/
theorem copied_cells {g : Fin n → (Fin n → α) → (Fin n → α) → α} {d t : Fin n → α} (out : Fin n → α)
    (h : ∀ i o, (∀ j < i, o j = t j) → g i d o = t i) : copied (cellCopies g) d out = t := by
  have hlen : (cellCopies g).length = n := by simp [cellCopies]
  have hprefix : ∀ k ≤ n, ∀ j : Fin n, j.val < k → copied ((cellCopies g).take k) d out j = t j := by
    intro k
    induction k with
    | zero =>
      intro _ j hj
      omega
    | succ k ih =>
      intro hk j hj
      have hin : k < (cellCopies g).length := by omega
      have hat : (cellCopies g)[k] = fun d out => Function.update out ⟨k, hk⟩ (g ⟨k, hk⟩ d out) := by
        simp [cellCopies]
      rw [List.take_succ_eq_append_getElem hin, copied_concat, hat]
      dsimp only
      by_cases hjk : j = ⟨k, hk⟩
      · rw [hjk, Function.update_self]
        exact h _ _ fun i hi => ih (by omega) i hi
      · rw [Function.update_of_ne hjk]
        refine ih (by omega) j ?_
        have hne : j.val ≠ k := fun heq => hjk (Fin.ext heq)
        omega
  funext j
  have hall := hprefix n (le_refl n) j j.isLt
  rwa [List.take_of_length_le (by omega)] at hall

/-- A plain copy. -/
theorem copied_cells_same (d out : Fin n → α) : copied (cellCopies fun i a _ => a i) d out = d :=
  copied_cells out fun _ _ _ => rfl

theorem stored_cells (v a : Fin n → α) : stored (cellStores v) a = v := by
  have hcopied : stored (cellStores v) a = copied (cellCopies fun i _ _ => v i) a a := by
    unfold stored copied cellStores cellCopies
    rw [List.foldl_map, List.foldl_map]
  rw [hcopied]
  exact copied_cells a fun _ _ _ => rfl

end Parts

end Protocol

end Seqlock
