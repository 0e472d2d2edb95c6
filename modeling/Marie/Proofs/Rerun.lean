/-
# Running again what was taken back

Taking back the newest transitions and making as many micro-steps again reproduces them, if the
input source gives the same values again. Taking back leads to settled machines, whereas the
first run came through machines that had not settled yet, but settling first makes no difference
to a transition. So the transitions that were taken back are a trace of the machine that taking
back leads to, and the micro-steps follow it.

* `Machine.Trace.of_inputs` : a trace depends on the numbers it takes only through the values
  that they put into IN;
* `Simulator.exists_trace_unwind` : the newest entries, if micro-steps have recorded them, are a
  trace from where unwinding them leads;
* `Simulator.rerun_rewound` : running again reproduces the log and the state.
-/
import Marie.Proofs.Ledger
import Marie.Proofs.StepRefinement

namespace Marie

/-! ## Values from the input source -/

/-- The value that an action put into IN. -/
def Action.input? : Action → Option Word
  | .input _ new => some new
  | _ => none

/-- The values that entries put into IN. -/
def inputs (es : List LogEntry) : List Word :=
  es.filterMap fun e => e.action.input?

namespace Machine

/-- No micro-operation puts a value from the input source into IN. -/
theorem execute_input? {m m' : Machine} {op : MicroOp} {action : Action}
    (h : m.execute op = (some action, m')) : action.input? = none := by
  cases op with
  | decode =>
      simp only [execute, decode] at h
      split at h
      · cases h; rfl
      · cases h; rfl
  | skipIfTrue =>
      simp only [execute] at h
      split at h
      · cases h; rfl
      · cases h
  | requestInput => cases h
  | _ => cases h; rfl

/-- A transition puts the number that it takes into IN, as a word. -/
theorem Advance.input?_eq {m m' : Machine} {v : Option Int} {e : LogEntry}
    (h : m.Advance v e m') : e.action.input? = v.map Word.ofInt := by
  cases h with
  | perform _ _ hperform =>
      rcases perform_cases hperform with ⟨_, rfl, _⟩ | ⟨op, m₁, _, hexec, _⟩
      · rfl
      · exact execute_input? hexec
  | takeInput _ _ => rfl
  | receive n _ _ => rfl

/-- Another number for the same word makes no difference to a transition. -/
theorem Advance.of_ofInt_eq {m m' : Machine} {n k : Int} {e : LogEntry}
    (h : m.Advance (some n) e m') (hword : Word.ofInt n = Word.ofInt k) :
    m.Advance (some k) e m' := by
  cases h with
  | receive _ hrun hwait =>
      have hsame : m.settle.receive n = m.settle.receive k := by
        simp only [Machine.receive, hword]
      rw [hsame]
      exact .receive k hrun hwait

/-- A trace takes any numbers that put the recorded values into IN. -/
theorem Trace.of_inputs {m m' : Machine} {vs ws : List Int} {es : List LogEntry}
    (h : m.Trace vs es m') (hwords : ws.map Word.ofInt = inputs es) : m.Trace ws es m' := by
  induction h generalizing ws with
  | nil m =>
      obtain rfl := List.map_eq_nil_iff.mp hwords
      exact .nil m
  | @cons m m₁ m' v e vs es hadv _ ih =>
      rw [inputs, List.filterMap_cons, hadv.input?_eq] at hwords
      cases v with
      | none => exact .cons hadv (ih hwords)
      | some n =>
          obtain ⟨k, rest, rfl, hword, hrest⟩ := List.map_eq_cons_iff.mp hwords
          exact .cons (hadv.of_ofInt_eq hword.symm) (ih hrest)

/-- A trace that is not empty may start before settling. -/
theorem Trace.of_settlesTo {m m₁ m' : Machine} {vs : List Int} {es : List LogEntry}
    (h : m₁.Trace vs es m') (hes : es ≠ []) (hsettles : m.SettlesTo m₁) : m.Trace vs es m' := by
  cases h with
  | nil => exact absurd rfl hes
  | cons hadv htrace => exact .cons (hadv.of_settlesTo hsettles) htrace

/-! ## Unwinding -/

/-- Unwinding one entry more. -/
theorem unwind_append_singleton (m : Machine) (es : List LogEntry) (e : LogEntry) :
    m.unwind (es ++ [e]) = (m.unwind es).undoEntry e :=
  List.foldl_append

end Machine

namespace Simulator

variable {σ α : Type}

/-! ## Repeated calls -/

/-- Makes a call a number of times, and lists the answers. -/
def repeated (call : Simulator σ → α × Simulator σ) (k : Nat) (s : Simulator σ) :
    List α × Simulator σ :=
  match k with
  | 0 => ([], s)
  | k + 1 =>
    let (answer, s) := call s
    let (answers, s) := repeated call k s
    (answer :: answers, s)

/-- One call more comes after the others. -/
theorem repeated_succ_snd (call : Simulator σ → α × Simulator σ) (k : Nat) (s : Simulator σ) :
    (repeated call (k + 1) s).2 = (call (repeated call k s).2).2 := by
  induction k generalizing s with
  | zero => rfl
  | succ k ih => exact ih (call s).2

/-- Making micro-steps back for the newest entries of the log gives their actions, newest first,
and unwinds them. -/
theorem repeated_microStepBack (s : Simulator σ) (newer older : List LogEntry)
    (h : s.log.recent = newer ++ older) :
    repeated microStepBack newer.length s =
      (newer.map fun e => some e.action,
        { s with machine := s.machine.unwind newer, log := ⟨older⟩ }) := by
  induction newer generalizing s with
  | nil =>
      rw [List.nil_append] at h
      rw [List.length_nil, repeated, ← h]
      rfl
  | cons e rest ih =>
      have hback : s.microStepBack =
          (some e.action, { s with machine := s.machine.undoEntry e, log := ⟨rest ++ older⟩ }) := by
        rw [microStepBack, h]
        rfl
      rw [List.length_cons, repeated, hback]
      simp only
      rw [ih _ rfl]
      rfl

variable [InputSource σ]

/-- Micro-steps follow a trace, if the source gives the numbers of the trace. -/
theorem repeated_microStep {s : Simulator σ} {m m' : Machine} {numbers : List Int}
    {es : List LogEntry} {input' : σ} (htrace : m.Trace numbers es m') (hm : s.machine = m)
    (hinput : Delivers s.input numbers input') :
    repeated microStep es.length s =
      (es.map fun e => some e.action, { s with input := input' }.commitTrace es m') := by
  induction htrace generalizing s with
  | nil m =>
      cases hinput
      rw [← hm, commitTrace_nil]
      rfl
  | @cons m m₁ m' v e numbers es hadv _ ih =>
      rw [← hm] at hadv
      obtain ⟨input₁, hmicro, hrest⟩ := exists_microStep_of_trace hadv hinput
      have hrest' : Delivers ({ s with input := input₁ }.commitTrace [e] m₁).input numbers
          input' := by
        rw [input_commitTrace]
        exact hrest
      rw [List.length_cons, repeated, hmicro]
      simp only
      rw [ih (machine_commitTrace _ _ _) hrest', commitTrace_input, commitTrace_commitTrace]
      rfl

/-! ## Entries recorded by micro-steps -/

/-- All kinds of calls but those that change the settings or the number of completed
instructions. -/
def faithful : List Usage :=
  [.forward, .poke, .halting, .rewind, .input, .restart, .breakpoints]

/-- The entry at an index of the log was recorded by a micro-step: at some moment the log had
just the entries before it, then a micro-step recorded one more, and since then the log has
never been without that one. -/
def RecordedByMicroStep (s₀ s : Simulator σ) (index : Nat) : Prop :=
  ∃ u : Simulator σ, History faithful 0 s₀ u ∧ u.log.size = index ∧
    u.microStep.1.isSome = true ∧ History faithful (index + 1) u.microStep.2 s

/-- Where unwinding down to an entry leads, the transition of the entry starts, and it leads to
where unwinding down to the next entry leads. -/
theorem RecordedByMicroStep.exists_advance {s₀ s : Simulator σ} {newer older : List LogEntry}
    {e : LogEntry} (h : RecordedByMicroStep s₀ s older.length) (hstart : s₀.Restarted)
    (hlog : s₀.flags.enableLog = true) (hrecent : s.log.recent = newer ++ e :: older) :
    ∃ v m', (s.machine.unwind (newer ++ [e])).Advance v e m' ∧
      m'.SettlesTo (s.machine.unwind newer) := by
  obtain ⟨u, hpast, hsize, hsome, hsince⟩ := h
  obtain ⟨action, haction⟩ := Option.isSome_iff_exists.mp hsome
  have hkeeps := hpast.ledger (by decide) (by decide) hstart hlog
  obtain ⟨v, e', hadv, -, hpush, hflags⟩ :=
    exists_advance_of_microStep hkeeps.logging (microStep_eq haction)
  have hsize' : u.microStep.2.log.size = older.length + 1 := by
    rw [hpush, Log.size_push, hsize]
  have hfirst : Restores u.microStep.2 u.microStep.2 :=
    ⟨hadv.fits hkeeps.ledger.fits, by rw [hflags, hkeeps.logging], [], rfl, .refl _⟩
  have hrestores : Restores u.microStep.2 s := by
    rw [← hsize'] at hsince
    exact hsince.preserves (fun _ _ hmove hr =>
      hr.move (by decide) (by decide) (fun _ => by omega) hmove) hfirst
  obtain ⟨newer', hnewer, hsettles⟩ := hrestores.restores
  -- the entry that the micro-step recorded is the one at this place of the log
  rw [hrecent, hpush, Log.push] at hnewer
  obtain ⟨rfl, hrest⟩ := List.append_inj' hnewer (by simpa [Log.size] using hsize.symm)
  obtain ⟨rfl, -⟩ := List.cons.inj hrest
  refine ⟨v, u.microStep.2.machine, ?_, hsettles⟩
  rw [Machine.unwind_append_singleton, hsettles.undoEntry_eq, hadv.undoEntry hkeeps.ledger.fits]
  exact Machine.Advance.settle_iff.mpr hadv

/-- The newest entries, if micro-steps have recorded them and the last call was a micro-step, are
a trace from where unwinding them leads. -/
theorem exists_trace_unwind {s₀ r s : Simulator σ} {action : Action} (hstart : s₀.Restarted)
    (hlog : s₀.flags.enableLog = true) (hpast : History faithful 0 s₀ r)
    (hstep : r.microStep = (some action, s)) (newer older : List LogEntry)
    (hrecent : s.log.recent = newer ++ older) (hnewer : newer ≠ [])
    (hown : ∀ i, older.length ≤ i → i < s.log.size → RecordedByMicroStep s₀ s i) :
    ∃ vs, (s.machine.unwind newer).Trace vs newer.reverse s.machine := by
  induction newer using List.reverseRecOn generalizing older with
  | nil => exact absurd rfl hnewer
  | append_singleton newer e ih =>
      rw [List.append_assoc, List.singleton_append] at hrecent
      rw [List.reverse_append]
      by_cases hempty : newer = []
      · -- the newest entry is that of the last micro-step, which leads to the machine itself
        subst hempty
        have hkeeps := hpast.ledger (by decide) (by decide) hstart hlog
        obtain ⟨v, e', hadv, -, hpush, -⟩ := exists_advance_of_microStep hkeeps.logging hstep
        rw [hpush, Log.push] at hrecent
        obtain ⟨rfl, -⟩ := List.cons.inj hrecent
        have hundo := hadv.undoEntry hkeeps.ledger.fits
        refine ⟨v.toList ++ [], .cons (Machine.Advance.of_settlesTo ?_ (.refl _)) (.nil _)⟩
        rw [List.nil_append, Machine.unwind, List.foldl_cons, List.foldl_nil, hundo]
        exact Machine.Advance.settle_iff.mpr hadv
      · have hindex : RecordedByMicroStep s₀ s older.length := by
          apply hown _ (Nat.le_refl _)
          rw [Log.size, hrecent, List.length_append, List.length_cons]
          omega
        obtain ⟨v, m', hadv, hsettles⟩ := hindex.exists_advance hstart hlog hrecent
        obtain ⟨vs, htrace⟩ := ih (e :: older) hrecent hempty fun i hi => hown i (by
          rw [List.length_cons] at hi
          omega)
        have hreverse : newer.reverse ≠ [] := by simpa using hempty
        exact ⟨v.toList ++ vs, .cons hadv (htrace.of_settlesTo hreverse hsettles)⟩

/-- Micro-steps after a history belong to the history. -/
theorem History.repeated_microStep {allowed : List Usage} {floor : Nat} {s t : Simulator σ}
    (h : History allowed floor s t) (ha : .forward ∈ allowed) (k : Nat) :
    History allowed floor s (repeated Simulator.microStep k t).2 := by
  induction k generalizing t with
  | zero => exact h
  | succ k ih => exact ih (h.microStep ha)

/-- Micro-steps in a row, each with an action, have recorded all entries since the first of
them. -/
theorem recordedByMicroStep_repeated {s₀ u : Simulator σ} (hstart : s₀.Restarted)
    (hlog : s₀.flags.enableLog = true) (hpast : History faithful 0 s₀ u) (k : Nat)
    (hall : ∀ answer ∈ (repeated microStep k u).1, answer.isSome = true) :
    ∀ i, u.log.size ≤ i → i < (repeated microStep k u).2.log.size →
      RecordedByMicroStep s₀ (repeated microStep k u).2 i := by
  induction k generalizing u with
  | zero => exact fun i hle hlt => absurd hlt (Nat.not_lt.mpr hle)
  | succ k ih =>
      intro i hle hlt
      have hsome : u.microStep.1.isSome = true := hall _ List.mem_cons_self
      by_cases hfirst : i = u.log.size
      · subst hfirst
        exact ⟨u, hpast, rfl, hsome, (History.refl _).repeated_microStep (by decide) k⟩
      · obtain ⟨action, haction⟩ := Option.isSome_iff_exists.mp hsome
        have hkeeps := hpast.ledger (by decide) (by decide) hstart hlog
        obtain ⟨-, e, -, -, hpush, -⟩ :=
          exists_advance_of_microStep hkeeps.logging (microStep_eq haction)
        have hrest : ∀ answer ∈ (repeated microStep k u.microStep.2).1, answer.isSome = true :=
          fun answer hmem => hall answer (List.mem_cons_of_mem _ hmem)
        exact ih (hpast.microStep (by decide)) hrest i (by rw [hpush, Log.size_push]; omega) hlt

/-! ## Running again -/

/-- Take any history from the start of a program with the log on, whose last call is a micro-step
with an action, and of which micro-steps have recorded the `k` newest entries. Making `k`
micro-steps back, and then `k` micro-steps with an input source that gives the same values again,
gives the same actions in their original order, and leads to the same machine and log. -/
theorem rerun_rewound {s₀ r s : Simulator σ} {action : Action} (hstart : s₀.Restarted)
    (hlog : s₀.flags.enableLog = true) (hpast : History faithful 0 s₀ r)
    (hstep : r.microStep = (some action, s)) (k : Nat) (hk : k ≤ s.log.size)
    (hown : ∀ i, s.log.size ≤ i + k → i < s.log.size → RecordedByMicroStep s₀ s i)
    {input input' : σ} {numbers : List Int} (hinput : Delivers input numbers input')
    (hnumbers : numbers.map Word.ofInt = inputs (s.log.entries.drop (s.log.size - k))) :
    ∃ (actions : List Action) (t : Simulator σ),
      actions = (s.log.entries.drop (s.log.size - k)).map (·.action) ∧
      repeated microStepBack k s = (actions.reverse.map some, t) ∧
      repeated microStep k { t with input } = (actions.map some, { s with input := input' }) := by
  obtain ⟨newer, older, hrecent, rfl⟩ : ∃ newer older, s.log.recent = newer ++ older ∧
      newer.length = k :=
    ⟨s.log.recent.take k, s.log.recent.drop k, (List.take_append_drop _ _).symm,
      List.length_take_of_le hk⟩
  have hsize : s.log.size = newer.length + older.length := by
    rw [Log.size, hrecent, List.length_append]
  have hdrop : s.log.entries.drop (s.log.size - newer.length) = newer.reverse := by
    rw [Log.entries, hrecent, List.reverse_append, hsize, Nat.add_sub_cancel_left,
      ← List.length_reverse, List.drop_left]
  rw [hdrop] at hnumbers ⊢
  refine ⟨_, { s with machine := s.machine.unwind newer, log := ⟨older⟩ }, rfl, ?_, ?_⟩
  · rw [repeated_microStepBack s newer older hrecent, ← List.map_reverse, List.reverse_reverse,
      List.map_map]
    rfl
  · -- micro-steps follow the trace that the entries are
    obtain ⟨vs, htrace⟩ : ∃ vs, (s.machine.unwind newer).Trace vs newer.reverse s.machine := by
      by_cases hempty : newer = []
      · subst hempty
        exact ⟨[], .nil _⟩
      · exact exists_trace_unwind hstart hlog hpast hstep newer older hrecent hempty
          fun i hi => hown i (by omega)
    have hlogging : s.flags.enableLog = true := by
      have hkeeps := hpast.ledger (by decide) (by decide) hstart hlog
      obtain ⟨-, -, -, -, -, hflags⟩ := exists_advance_of_microStep hkeeps.logging hstep
      rw [hflags, hkeeps.logging]
    have hfollow := repeated_microStep
      (s := { s with machine := s.machine.unwind newer, log := ⟨older⟩, input })
      (htrace.of_inputs hnumbers) rfl hinput
    rw [List.length_reverse] at hfollow
    have hlogs : Log.ofEntries ((⟨older⟩ : Log).entries ++ newer.reverse) = s.log := by
      rw [Log.entries, ← List.reverse_append, ← hrecent]
      exact s.log.ofEntries_entries
    rw [hfollow, List.map_map, commitTrace, if_pos hlogging]
    simp only [hlogs]
    rfl

/-- A fetch in which IR is changed before it is decoded, so that an input instruction is carried
out. The four micro-steps since then are taken back and made again with another source, which
gives the same number. -/
theorem rerun_rewound_poked_input :
    let s₀ : Simulator Script := (new {} (.list [5])).reset
    let u := (repeated microStep 5 s₀).2.setReg .ir 0x5000
    let r := (repeated microStep 3 u).2
    let s := r.microStep.2
    (s₀.Restarted ∧ s₀.flags.enableLog = true ∧ History faithful 0 s₀ r ∧
      r.microStep = (some .stepEnd, s) ∧ 4 ≤ s.log.size ∧
      (∀ i, s.log.size ≤ i + 4 → i < s.log.size → RecordedByMicroStep s₀ s i) ∧
      Delivers (Script.const 5) [5] { Script.const 5 with polls := 1 } ∧
      [5].map Word.ofInt = inputs (s.log.entries.drop (s.log.size - 4))) ∧
    ∃ (actions : List Action) (t : Simulator Script),
      actions = (s.log.entries.drop (s.log.size - 4)).map (·.action) ∧
      repeated microStepBack 4 s = (actions.reverse.map some, t) ∧
      repeated microStep 4 { t with input := Script.const 5 } =
        (actions.map some, { s with input := { Script.const 5 with polls := 1 } }) := by
  intro s₀ u r s
  have hstart : s₀.Restarted := .reset _
  have hlog : s₀.flags.enableLog = true := rfl
  have hu : History faithful 0 s₀ u :=
    ((History.refl s₀).repeated_microStep (by decide) 5).setReg (by decide) .ir 0x5000
  have hpast : History faithful 0 s₀ r := hu.repeated_microStep (by decide) 3
  have hlast : r.microStep.1 = some .stepEnd := by decide +kernel
  have hstep : r.microStep = (some .stepEnd, s) := microStep_eq hlast
  have hown : ∀ i, 6 ≤ i → i < s.log.size → RecordedByMicroStep s₀ s i := by
    have hall : ∀ answer ∈ (repeated microStep 4 u).1, answer.isSome = true := by decide +kernel
    have hsix : u.log.size = 6 := by decide +kernel
    have hs : (repeated microStep 4 u).2 = s := repeated_succ_snd microStep 3 u
    have hrecorded := recordedByMicroStep_repeated hstart hlog hu 4 hall
    rw [hs, hsix] at hrecorded
    exact hrecorded
  have hsize : s.log.size = 10 := by decide +kernel
  have hnumbers : [5].map Word.ofInt = inputs (s.log.entries.drop (s.log.size - 4)) := by
    decide +kernel
  have hinput : Delivers (Script.const 5) [5] { Script.const 5 with polls := 1 } :=
    .cons rfl (.nil _)
  clear_value s r u
  have hfour : ∀ i, s.log.size ≤ i + 4 → i < s.log.size → RecordedByMicroStep s₀ s i :=
    fun i hle => hown i (by omega)
  exact ⟨⟨hstart, hlog, hpast, hstep, by omega, hfour, hinput, hnumbers⟩,
    rerun_rewound hstart hlog hpast hstep 4 (by omega) hfour hinput hnumbers⟩

end Simulator

end Marie
