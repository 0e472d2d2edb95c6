/-
# The operation that a cycle carries out

After a fetch the machine carries out the micro-operations of the operation that was decoded
last. That is the one that the cycle itself has decoded, with one exception: a word that no
operation decodes stops the machine, but leaves the operation of an earlier cycle decoded. If the
machine is then set going from outside, it goes on in the middle of that operation, now with the
undecodable word as its operand.

The invariant says what the log holds of the cycle in progress: nothing has been decoded until
the fetch is over, and since then just one word has been (`Machine.InPhase`).

* `Machine.Ledger.inPhase` : the invariant of every ledger;
* `Simulator.decodings_of_executes` : a cycle carries out what it has decoded, unless its word
  could not be decoded, which takes a machine that is set going from outside;
* `Simulator.executes_undecoded` : the exception does occur.
-/
import Marie.Proofs.CycleLog
import Marie.Proofs.Rerun

namespace Marie

/-! ## What the log holds of the cycle in progress -/

/-- What an action has decoded a word to, if that is what it did: an operation, or nothing if the
machine stopped at the word. -/
def Action.decoding? : Action → Option (Option Opcode)
  | .decode _ opcode => some (some opcode)
  | .halt true (some (.unsupportedOpcode _)) => some none
  | _ => none

namespace Log

/-- The entries after the newest beginning of a cycle, newest first. -/
def sinceStart (log : Log) : List LogEntry :=
  log.recent.takeWhile fun e => !e.action.isStepStart

/-- What has been decoded after the newest beginning of a cycle, newest first. -/
def decodings (log : Log) : List (Option Opcode) :=
  log.sinceStart.filterMap fun e => e.action.decoding?

/-- An entry that begins a cycle leaves nothing decoded after it. -/
theorem decodings_push_start (log : Log) {e : LogEntry} {pc : Word}
    (h : e.action = .stepStart pc) :
    (log.push e).decodings = [] ∧ (log.push e).lastStart? = some pc := by
  constructor
  · rw [decodings, sinceStart, push, List.takeWhile_cons, h]
    rfl
  · rw [lastStart?, push, List.findSome?_cons, h]

/-- Any other entry adds what it has decoded. -/
theorem decodings_push (log : Log) {e : LogEntry} (h : e.action.isStepStart = false) :
    (log.push e).decodings = e.action.decoding?.toList ++ log.decodings ∧
      (log.push e).lastStart? = log.lastStart? := by
  constructor
  · rw [decodings, sinceStart, push, List.takeWhile_cons, h, Bool.not_false, if_pos rfl,
      List.filterMap_cons, decodings, sinceStart]
    cases e.action.decoding? <;> rfl
  · rw [lastStart?, push, List.findSome?_cons]
    cases he : e.action with
    | stepStart pc => simp [he, Action.isStepStart] at h
    | _ => rfl

end Log

namespace Machine

variable {m m' : Machine} {allowed : List Usage} {log : Log}

/-- No micro-program begins a cycle or decodes. -/
theorem ne_of_mem_microProgram {opcode : Opcode} {op : MicroOp} (h : op ∈ opcode.microProgram) :
    op ≠ .stepStart ∧ op ≠ .decode := by
  have hall : ∀ op ∈ opcode.microProgram, op ≠ .stepStart ∧ op ≠ .decode := by
    cases opcode <;> decide
  exact hall op h

/-- The first micro-operation begins the cycle, the sixth one decodes, and no other one does
either. -/
theorem nextOp?_cases {op : MicroOp} (h : m.nextOp? = some op) :
    m.microPC = 0 ∧ op = .stepStart ∨ m.microPC = 5 ∧ op = .decode ∨
      m.microPC ≠ 0 ∧ m.microPC ≠ 5 ∧ op ≠ .stepStart ∧ op ≠ .decode := by
  unfold nextOp? at h
  split at h
  · rename_i hlt
    obtain ⟨i, hi⟩ : ∃ i : Fin 6, m.microPC = i.val := ⟨⟨m.microPC, hlt⟩, rfl⟩
    have hfetch : ∀ i : Fin 6, fetchDecode[i.val]? = some .stepStart ∧ i.val = 0 ∨
        fetchDecode[i.val]? = some .decode ∧ i.val = 5 ∨
        fetchDecode[i.val]? ≠ some .stepStart ∧ fetchDecode[i.val]? ≠ some .decode ∧
          i.val ≠ 0 ∧ i.val ≠ 5 := by decide
    have hcase := hfetch i
    rw [← hi, h] at hcase
    grind
  · rename_i hge
    rw [length_fetchDecode] at hge
    split at h
    · have hne := ne_of_mem_microProgram (List.mem_of_getElem? h)
      exact .inr (.inr ⟨by omega, by omega, hne⟩)
    · cases h

/-- A micro-operation that neither begins a cycle nor decodes leaves the decoded operation as it
is, and its action shows neither. -/
theorem execute_of_ne {op : MicroOp} {action : Action} (hstart : op ≠ .stepStart)
    (hdecode : op ≠ .decode) (h : m.execute op = (some action, m')) :
    action.isStepStart = false ∧ action.decoding? = none ∧ m'.decoded = m.decoded := by
  cases op with
  | stepStart => exact absurd rfl hstart
  | decode => exact absurd rfl hdecode
  | skipIfTrue =>
      simp only [execute] at h
      split at h
      · cases h; exact ⟨rfl, rfl, rfl⟩
      · cases h
  | requestInput => cases h
  | _ => cases h; exact ⟨rfl, rfl, rfl⟩

/-- Settling does nothing during a fetch. -/
theorem settle_eq_or_fetched (m : Machine) :
    m.settle = m ∨ fetchDecode.length ≤ m.microPC ∧ fetchDecode.length ≤ m.settle.microPC := by
  unfold settle
  split
  · rename_i op hidle hop
    split
    · rename_i hsilent
      right
      rw [length_fetchDecode]
      rcases nextOp?_of_isSilent hop hsilent with ⟨-, -, hpc⟩ | ⟨-, -, hpc⟩
      · exact ⟨by omega, by show 6 ≤ m.microPC + 1; omega⟩
      · exact ⟨by omega, by show 6 ≤ m.microPC + 1; omega⟩
    · exact .inl rfl
  · exact .inl rfl

/-! ## The phase of the cycle -/

/-- The log agrees with the phase of the cycle. A cycle that has begun has its beginning in the
log; nothing has been decoded in it until the fetch is over; and after that either the decoded
operation has been, or the machine has stopped at a word that no operation decodes. -/
structure InPhase (allowed : List Usage) (log : Log) (m : Machine) : Prop where
  started : 0 < m.microPC → log.lastStart?.isSome = true
  fetching : 0 < m.microPC → m.microPC < fetchDecode.length → log.decodings = []
  fetched : fetchDecode.length ≤ m.microPC →
    (∃ opcode, m.decoded = some opcode ∧ log.decodings = [some opcode]) ∨
      log.decodings = [none] ∧ (.halting ∉ allowed → m.halted = true)

namespace InPhase

/-- At the beginning of a cycle the log may hold anything. -/
theorem of_microPC_eq_zero (hpc : m.microPC = 0) : InPhase allowed log m := by
  refine ⟨?_, ?_, ?_⟩
  · omega
  · omega
  · rw [length_fetchDecode]
    omega

/-- An entry that neither begins a cycle nor decodes, of a machine that stays in its phase. -/
theorem push (h : InPhase allowed log m) {e : LogEntry} (hstart : e.action.isStepStart = false)
    (hnone : e.action.decoding? = none) (hdecoded : m'.decoded = m.decoded)
    (hhalted : .halting ∉ allowed → m.halted = true → m'.halted = true)
    (hpos : 0 < m'.microPC → 0 < m.microPC)
    (hphase : m'.microPC < fetchDecode.length ↔ m.microPC < fetchDecode.length) :
    InPhase allowed (log.push e) m' := by
  obtain ⟨hdecodings, hlast⟩ := log.decodings_push hstart
  rw [hnone, Option.toList_none, List.nil_append] at hdecodings
  refine ⟨?_, ?_, ?_⟩
  · intro hpc
    rw [hlast]
    exact h.started (hpos hpc)
  · intro hpc hlt
    rw [hdecodings]
    exact h.fetching (hpos hpc) (hphase.mp hlt)
  · intro hle
    have hle' : fetchDecode.length ≤ m.microPC := by omega
    rw [hdecodings, hdecoded]
    refine (h.fetched hle').imp_right fun ⟨hfault, hstop⟩ => ?_
    exact ⟨hfault, fun ha => hhalted ha (hstop ha)⟩

/-- The entry of a decoding, which is the first one of its cycle. -/
theorem pushDecoding (h : InPhase allowed log m) (hpc : m.microPC = 5) {e : LogEntry}
    {decoding : Option Opcode} (hstart : e.action.isStepStart = false)
    (hdecoding : e.action.decoding? = some decoding) (hpc' : m'.microPC = 6)
    (hresult : (∃ opcode, m'.decoded = some opcode ∧ decoding = some opcode) ∨
      decoding = none ∧ m'.halted = true) : InPhase allowed (log.push e) m' := by
  obtain ⟨hdecodings, hlast⟩ := log.decodings_push hstart
  rw [hdecoding, h.fetching (by omega) (by rw [hpc]; decide)] at hdecodings
  have honly : (log.push e).decodings = [decoding] := hdecodings
  refine ⟨fun _ => ?_, fun _ hlt => ?_, fun _ => ?_⟩
  · rw [hlast]
    exact h.started (by omega)
  · rw [length_fetchDecode] at hlt
    omega
  · rw [honly]
    rcases hresult with ⟨opcode, hdecoded, rfl⟩ | ⟨rfl, hhalted⟩
    · exact .inl ⟨opcode, hdecoded, rfl⟩
    · exact .inr ⟨rfl, fun _ => hhalted⟩

/-- Settling stays in the phase. -/
theorem settle (h : InPhase allowed log m) : InPhase allowed log m.settle := by
  rcases m.settle_eq_or_fetched with heq | ⟨hle, hle'⟩
  · rw [heq]
    exact h
  · have hdata := m.sameData_settle
    rw [length_fetchDecode] at hle
    refine ⟨fun _ => h.started (by omega), fun _ hlt => absurd hle' (by omega), fun _ => ?_⟩
    rw [hdata.decoded, hdata.halted]
    exact h.fetched hle

/-- The entry of a micro-operation agrees with the phase that it leads to. -/
theorem execute (h : InPhase allowed log m) {op : MicroOp} {action : Action}
    (hop : m.nextOp? = some op) (hrun : m.halted = false)
    (hexecute : m.execute op = (some action, m')) (interrupt : Interrupt) :
    InPhase allowed (log.push ⟨action, m.microPC, .idle⟩)
      (m'.moveTo (m.microPC + 1) interrupt) := by
  rcases nextOp?_cases hop with ⟨hpc, rfl⟩ | ⟨hpc, rfl⟩ | ⟨hpos, hne, hstart, hdecode⟩
  · -- the cycle begins
    cases hexecute
    obtain ⟨hdecodings, hlast⟩ :=
      log.decodings_push_start (e := ⟨.stepStart m.regs.pc, m.microPC, .idle⟩) rfl
    refine ⟨fun _ => by rw [hlast]; rfl, fun _ _ => hdecodings, fun hle => ?_⟩
    have hle' : 6 ≤ m.microPC + 1 := hle
    omega
  · -- the fetch is over
    simp only [Machine.execute, decode] at hexecute
    split at hexecute
    · rename_i opcode _
      cases hexecute
      exact h.pushDecoding hpc rfl rfl (congrArg (· + 1) hpc) (.inl ⟨opcode, rfl, rfl⟩)
    · cases hexecute
      exact h.pushDecoding hpc rfl rfl (congrArg (· + 1) hpc) (.inr ⟨rfl, rfl⟩)
  · -- within the fetch or the micro-program
    obtain ⟨hbegin, hnone, hdecoded⟩ := execute_of_ne hstart hdecode hexecute
    refine h.push hbegin hnone hdecoded ?_ ?_ ?_
    · intro _ hhalted
      rw [hrun] at hhalted
      cases hhalted
    · intro _
      omega
    · show m.microPC + 1 < 6 ↔ m.microPC < 6
      omega

/-- The entry of a transition agrees with the phase that it leads to. -/
theorem advance (h : InPhase allowed log m) {v : Option Int} {e : LogEntry}
    (hadv : m.Advance v e m') : InPhase allowed (log.push e) m' := by
  have hsettled := h.settle
  have hrun : m.settle.halted = false := by rw [settle_halted, hadv.running]
  cases hadv with
  | perform _ _ hperform =>
      rcases perform_cases hperform with ⟨-, rfl, rfl⟩ | ⟨op, m₁, hop, hexecute, rfl⟩
      · exact .of_microPC_eq_zero rfl
      · exact hsettled.execute hop hrun hexecute m₁.interrupt
  | takeInput _ _ => exact hsettled.push rfl rfl rfl (fun _ => id) id .rfl
  | receive n _ _ => exact hsettled.push rfl rfl rfl (fun _ => id) id .rfl

/-- The entry of a change from outside agrees with the phase. -/
theorem change (h : InPhase allowed log m) {e : LogEntry} (hchange : m.Change allowed e m') :
    InPhase allowed (log.push e) m' := by
  cases hchange with
  | setReg _ _ _ => exact h.push rfl rfl rfl (fun _ => id) id .rfl
  | setMem _ _ _ => exact h.push rfl rfl rfl (fun _ => id) id .rfl
  | setHalted ha halt _ =>
      have hnone : Action.decoding? (.halt halt none) = none := by cases halt <;> rfl
      exact h.push rfl hnone rfl (fun hno => absurd ha hno) id .rfl

end InPhase

/-- Every ledger agrees with the phase of the cycle in progress. -/
theorem Ledger.inPhase {es : List LogEntry} (h : m.Ledger allowed es) : InPhase allowed ⟨es⟩ m := by
  induction h with
  | reset m => exact .of_microPC_eq_zero rfl
  | settle _ ih => exact ih.settle
  | advance _ hadv ih => exact ih.advance hadv
  | change _ hchange ih => exact ih.change hchange

/-- The machine is about to carry out a micro-operation of the operation decoded last. -/
structure Executes (m : Machine) (opcode : Opcode) (op : MicroOp) : Prop where
  running : m.halted = false
  idle : m.interrupt = .idle
  fetched : fetchDecode.length ≤ m.microPC
  decoded : m.decoded = some opcode
  next : m.nextOp? = some op

/-- What the log says of the cycle of a machine that is about to carry out an operation. -/
theorem InPhase.decodings_cases (h : InPhase allowed log m) {opcode : Opcode}
    {op : MicroOp} (hexecutes : m.Executes opcode op) :
    log.lastStart?.isSome = true ∧ (log.decodings = [some opcode] ∨ log.decodings = [none]) ∧
      (.halting ∉ allowed → log.decodings = [some opcode]) := by
  have hfetched := hexecutes.fetched
  have hpos : 0 < m.microPC := Nat.lt_of_lt_of_le (by decide) hfetched
  refine ⟨h.started hpos, ?_⟩
  rcases h.fetched hfetched with ⟨opcode', hdecoded, hdecodings⟩ | ⟨hdecodings, hstop⟩
  · have hsame : opcode' = opcode := Option.some.inj (hdecoded.symm.trans hexecutes.decoded)
    rw [hsame] at hdecodings
    exact ⟨.inl hdecodings, fun _ => hdecodings⟩
  · refine ⟨.inr hdecodings, fun ha => ?_⟩
    have hhalted := hstop ha
    rw [hexecutes.running] at hhalted
    cases hhalted

end Machine

namespace Simulator

variable {σ : Type} [InputSource σ]

/-- Take any history from the start of a program with the log on. Whenever the next
micro-operation belongs to an operation, the log holds the beginning of the cycle, and just one
word has been decoded since then: either to this operation, or the machine has stopped at a word
that no operation decodes. Without anyone setting the machine going or stopping it from outside,
it is always this operation. -/
theorem decodings_of_executes {s₀ s : Simulator σ} (hstart : s₀.Restarted)
    (hlog : s₀.flags.enableLog = true) (h : History faithful 0 s₀ s) {opcode : Opcode}
    {op : MicroOp} (hexecutes : s.machine.Executes opcode op) :
    s.log.lastStart?.isSome = true ∧
      (s.log.decodings = [some opcode] ∨ s.log.decodings = [none]) ∧
      (History cyclic 0 s₀ s → s.log.decodings = [some opcode]) := by
  have hphase := (h.ledger (by decide) (by decide) hstart hlog).ledger.inPhase
  obtain ⟨hbegun, hdecodings, -⟩ := hphase.decodings_cases hexecutes
  refine ⟨hbegun, hdecodings, fun hcyclic => ?_⟩
  have hphase' := (hcyclic.ledger (by decide) (by decide) hstart hlog).ledger.inPhase
  exact (hphase'.decodings_cases hexecutes).2.2 (by decide)

/-- The first word cannot be decoded. The machine is set going again, ends the cycle, since
nothing is decoded, and fetches the next word, whose operation it is about to carry out. -/
theorem decodings_of_executes_set_going :
    let s₀ : Simulator Feed := (new {} .empty).reset
    let u := (s₀.setMem 0 0xF000).setMem 1 0xA005
    let s := (repeated microStep 6 (u.step.2.setHalted false).step.2).2
    (s₀.Restarted ∧ s₀.flags.enableLog = true ∧ History faithful 0 s₀ s ∧
      s.machine.Executes .loadImmi (.arith .loadImmi)) ∧
    s.log.lastStart?.isSome = true ∧
      (s.log.decodings = [some .loadImmi] ∨ s.log.decodings = [none]) ∧
      (History cyclic 0 s₀ s → s.log.decodings = [some .loadImmi]) := by
  intro s₀ u s
  have hstart : s₀.Restarted := .reset _
  have hlog : s₀.flags.enableLog = true := rfl
  have hu : History faithful 0 s₀ u :=
    ((History.refl s₀).setMem (by decide) 0 0xF000).setMem (by decide) 1 0xA005
  have hgoing : History faithful 0 s₀ (u.step.2.setHalted false) :=
    (hu.step (by decide)).setHalted (by decide) false
  have h : History faithful 0 s₀ s :=
    (hgoing.step (by decide)).repeated_microStep (by decide) 6
  have hexecutes : s.machine.Executes .loadImmi (.arith .loadImmi) := by
    constructor <;> decide +kernel
  exact ⟨⟨hstart, hlog, h, hexecutes⟩, decodings_of_executes hstart hlog h hexecutes⟩

/-- The first word puts 5 into the accumulator, and the second one cannot be decoded. The machine
is set going again, and the next micro-step carries out the operation of the first word once more,
with the operand of the second. -/
theorem executes_undecoded :
    let s₀ : Simulator Feed := (new {} .empty).reset
    let s := ((s₀.setMem 0 0xA005).setMem 1 0xF000).step.2.step.2.setHalted false
    (s₀.Restarted ∧ s₀.flags.enableLog = true ∧ History faithful 0 s₀ s) ∧
      s.machine.Executes .loadImmi (.arith .loadImmi) ∧ s.log.lastStart? = some 1 ∧
      s.log.decodings = [none] ∧ s.machine.regs.ac = 5 ∧
      s.microStep.1 = some (.arithmetic .loadImmi 5) ∧ s.microStep.2.machine.regs.ac = 0 := by
  intro s₀ s
  have hset : History faithful 0 s₀ ((s₀.setMem 0 0xA005).setMem 1 0xF000) :=
    ((History.refl s₀).setMem (by decide) 0 0xA005).setMem (by decide) 1 0xF000
  have h : History faithful 0 s₀ s :=
    ((hset.step (by decide)).step (by decide)).setHalted (by decide) false
  have hexecutes : s.machine.Executes .loadImmi (.arith .loadImmi) := by
    constructor <;> decide +kernel
  refine ⟨⟨.reset _, rfl, h⟩, hexecutes, ?_, ?_, ?_, ?_, ?_⟩
  all_goals decide +kernel

end Simulator

end Marie
