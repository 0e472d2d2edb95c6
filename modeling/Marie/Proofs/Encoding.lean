/-
# Words of statements

The words that statements stand for, as a relation that says how a statement is read and not how
its problems are found:

* `Literal` : a text is a number in the base of a data directive;
* `Names` : an operand names an address, as a literal or as a label;
* `Encodes` : a statement stands for a word.

`Statement.encode_eq_ok_iff` shows that encoding succeeds for the statements that stand for a
word, and gives that word. `Statement.encode_not_structural` says which problems it cannot meet.
-/
import Marie.Assembly.Encoding

namespace Marie

/-! ## Numbers -/

/-- A text is a number in the base of a data directive: a row of digits, which may have a minus
sign before it in base 10. -/
inductive Literal (form : DataForm) : List Char → Int → Prop
  | digits {text : List Char} (hne : text ≠ [])
      (hdigits : ∀ c ∈ text, Numeral.isDigit form.radix c = true) :
      Literal form text (Numeral.value form.radix.base text)
  | negative {text : List Char} (hform : form = .dec) (hne : text ≠ [])
      (hdigits : ∀ c ∈ text, Numeral.isDigit .decimal c = true) :
      Literal form ('-' :: text) (-(Numeral.value 10 text : Int))

/-- The numbers that a data directive stores: those of a word, and in base 10 also the negative
ones of a word in two's complement. -/
def DataForm.Allows : DataForm → Int → Prop
  | .dec, n => -32768 ≤ n ∧ n ≤ 65535
  | .oct, n => 0 ≤ n ∧ n ≤ 65535
  | .hex, n => 0 ≤ n ∧ n ≤ 65535

namespace Numeral

/-- What reading a numeral takes, in terms of its sign and its digits. -/
theorem parse_eq_ok_iff {radix : Radix} {text body : List Char} {negative : Bool} {n : Int}
    (hsplit : splitSign radix text = (negative, body)) :
    parse radix text = .ok n ↔
      (body ≠ [] ∧ (∀ c ∈ body, isDigit radix c = true) ∧ n = signedValue radix negative body) ∧
        -0x8000000000000000 ≤ n ∧ n < 0x8000000000000000 := by
  have hbad : (body.isEmpty || !body.all (isDigit radix)) = false ↔
      body ≠ [] ∧ ∀ c ∈ body, isDigit radix c = true := by
    rw [Bool.or_eq_false_iff, List.isEmpty_eq_false_iff, Bool.not_eq_false', List.all_eq_true]
  unfold parse
  simp only [hsplit]
  constructor
  · intro h
    split at h
    · cases h
    · rename_i hgood
      obtain ⟨hne, hdigits⟩ := hbad.mp (by simpa using hgood)
      split at h
      · rename_i hrange
        cases h
        exact ⟨⟨hne, hdigits, rfl⟩, hrange⟩
      · cases h
  · rintro ⟨⟨hne, hdigits, rfl⟩, hrange⟩
    rw [if_neg (by rw [hbad.mpr ⟨hne, hdigits⟩]; decide), if_pos hrange]

/-- A minus sign is no digit. -/
theorem not_isDigit_minus (radix : Radix) : isDigit radix '-' = false := by
  cases radix <;> decide

/-- Only base 10 has numerals with a sign. -/
theorem splitSign_of_ne {radix : Radix} {text : List Char}
    (h : ∀ rest, radix = .decimal → text ≠ '-' :: rest) : splitSign radix text = (false, text) := by
  unfold splitSign
  split
  · exact absurd rfl (h _ rfl)
  · rfl

end Numeral

/-- A literal is a sign, if there is one, with a row of digits behind it. -/
theorem literal_iff {form : DataForm} {text body : List Char} {negative : Bool} {n : Int}
    (hsplit : Numeral.splitSign form.radix text = (negative, body)) :
    Literal form text n ↔ body ≠ [] ∧ (∀ c ∈ body, Numeral.isDigit form.radix c = true) ∧
      n = Numeral.signedValue form.radix negative body := by
  -- only base 10 has a sign, and there no row of digits begins with it
  by_cases hsigned : ∃ rest, form = .dec ∧ text = '-' :: rest
  · obtain ⟨rest, rfl, rfl⟩ := hsigned
    obtain ⟨rfl, rfl⟩ : true = negative ∧ rest = body := by simpa [Numeral.splitSign, DataForm.radix] using hsplit
    constructor
    · intro h
      cases h with
      | digits _ hdigits =>
          have hminus := hdigits '-' List.mem_cons_self
          rw [Numeral.not_isDigit_minus] at hminus
          cases hminus
      | negative _ hne hdigits => exact ⟨hne, hdigits, rfl⟩
    · rintro ⟨hne, hdigits, rfl⟩
      exact .negative rfl hne hdigits
  · have hplain : Numeral.splitSign form.radix text = (false, text) := by
      apply Numeral.splitSign_of_ne
      intro rest hradix htext
      apply hsigned
      refine ⟨rest, ?_, htext⟩
      cases form <;> first | rfl | cases hradix
    rw [hplain] at hsplit
    cases hsplit
    constructor
    · intro h
      cases h with
      | digits hne hdigits => exact ⟨hne, hdigits, rfl⟩
      | negative hform => exact absurd ⟨_, hform, rfl⟩ hsigned
    · rintro ⟨hne, hdigits, rfl⟩
      exact .digits hne hdigits

/-- A text is read as a number of 64 bits exactly if it is a literal of that number. -/
theorem parse_eq_ok_iff_literal {form : DataForm} {text : List Char} {n : Int} :
    Numeral.parse form.radix text = .ok n ↔
      Literal form text n ∧ -0x8000000000000000 ≤ n ∧ n < 0x8000000000000000 := by
  have hsplit : Numeral.splitSign form.radix text =
      ((Numeral.splitSign form.radix text).1, (Numeral.splitSign form.radix text).2) := rfl
  rw [Numeral.parse_eq_ok_iff hsplit, literal_iff hsplit]

/-- The numbers that a data directive allows are those that it has a word for. -/
theorem DataForm.ofRange?_eq_some_iff {form : DataForm} {n : Int} {w : Word} :
    Word.ofRange? form.least n = some w ↔ form.Allows n ∧ w = Word.ofInt n := by
  have hallows : form.Allows n ↔ form.least ≤ n ∧ n ≤ 0xFFFF := by
    cases form <;> exact Iff.rfl
  unfold Word.ofRange?
  rw [hallows]
  split
  · rename_i hrange
    rw [Option.some_inj]
    exact ⟨fun h => ⟨hrange, h.symm⟩, fun h => h.2.symm⟩
  · rename_i hrange
    exact ⟨fun h => (by cases h), fun h => absurd h.1 hrange⟩

/-- The numbers that a data directive allows have 64 bits. -/
theorem DataForm.Allows.lt {form : DataForm} {n : Int} (h : form.Allows n) :
    -0x8000000000000000 ≤ n ∧ n < 0x8000000000000000 := by
  cases form <;> (simp only [Allows] at h; omega)

/-- A data directive succeeds with the numbers that it allows, and stores them modulo the size of
a word. -/
theorem encodeLiteral_eq_ok_iff {form : DataForm} {operand : Option String} {w : Word} :
    encodeLiteral form operand = .ok w ↔
      ∃ text n, operand = some text ∧ Literal form text.toList n ∧ form.Allows n ∧
        w = Word.ofInt n := by
  constructor
  · intro h
    cases operand with
    | none => cases h
    | some text =>
        cases hparse : Numeral.parse form.radix text.toList with
        | error e => cases e <;> simp [encodeLiteral, hparse] at h
        | ok n =>
            cases hrange : Word.ofRange? form.least n with
            | none => simp [encodeLiteral, hparse, hrange] at h
            | some w' =>
                obtain ⟨hallows, rfl⟩ := DataForm.ofRange?_eq_some_iff.mp hrange
                simp only [encodeLiteral, hparse, hrange, Except.ok.injEq] at h
                exact ⟨text, n, rfl, (parse_eq_ok_iff_literal.mp hparse).1, hallows, h.symm⟩
  · rintro ⟨text, n, rfl, hliteral, hallows, rfl⟩
    have hparse := parse_eq_ok_iff_literal.mpr ⟨hliteral, hallows.lt⟩
    have hrange := DataForm.ofRange?_eq_some_iff.mpr ⟨hallows, rfl⟩
    simp only [encodeLiteral, hparse, hrange]

/-! ## Addresses -/

/-- An operand is written as an address: it has only hexadecimal digits, and starts with one of
the digits 0 to 9. -/
structure AddressLiteral (text : List Char) : Prop where
  head : ∃ c rest, text = c :: rest ∧ Numeral.isDecimalDigit c = true
  digits : ∀ c ∈ text, Numeral.isDigit .hexadecimal c = true

/-- An operand names an address: it is the address, or a label that has it. -/
inductive Names (labels : String → Word → Prop) (operand : String) (addr : Word) : Prop
  | literal (h : AddressLiteral operand.toList)
      (hvalue : addr.toNat = Numeral.value 16 operand.toList) (hlt : addr.toNat < memorySize)
  | label (h : ¬ AddressLiteral operand.toList) (hlabel : labels operand addr)

theorem isAddressLiteral_iff (text : List Char) :
    isAddressLiteral text = true ↔ AddressLiteral text := by
  unfold isAddressLiteral
  rw [Bool.and_eq_true, List.all_eq_true]
  constructor
  · rintro ⟨hhead, hdigits⟩
    cases text with
    | nil => cases hhead
    | cons c rest => exact ⟨⟨c, rest, rfl, hhead⟩, hdigits⟩
  · rintro ⟨⟨c, rest, rfl, hhead⟩, hdigits⟩
    exact ⟨hhead, hdigits⟩

/-- An address that is written out is read as its number. -/
theorem AddressLiteral.parse_eq_ok_iff {text : List Char} (h : AddressLiteral text) {n : Int} :
    Numeral.parse .hexadecimal text = .ok n ↔
      n = Numeral.value 16 text ∧ (Numeral.value 16 text : Int) < 0x8000000000000000 := by
  obtain ⟨⟨c, rest, htext, -⟩, hdigits⟩ := h
  have hne : text ≠ [] := by
    rw [htext]
    exact List.cons_ne_nil c rest
  have hsplit : Numeral.splitSign .hexadecimal text = (false, text) := by
    apply Numeral.splitSign_of_ne
    intro _ hradix
    cases hradix
  rw [Numeral.parse_eq_ok_iff hsplit]
  constructor
  · rintro ⟨⟨-, -, rfl⟩, -, hlt⟩
    exact ⟨rfl, hlt⟩
  · rintro ⟨rfl, hlt⟩
    refine ⟨⟨hne, hdigits, rfl⟩, ?_, hlt⟩
    exact Int.le_trans (by decide) (Int.natCast_nonneg _)

/-- A small number is the number of its word. -/
theorem Word.toNat_ofInt {n : Nat} (h : n < memorySize) : (Word.ofInt n).toNat = n := by
  have hlt : n < 2 ^ 16 := Nat.lt_trans h (by decide)
  have hmod : ((n : Int) % 2 ^ 16).toNat = n := by omega
  rw [ofInt, UInt16.ofInt, hmod, UInt16.toNat_ofNat_of_lt' hlt]

/-- The address of an operand is the one that it names. -/
theorem resolveAddress_eq_ok_iff {symbols : Table String Word} {operand : String} {addr : Word} :
    resolveAddress symbols operand = .ok addr ↔
      Names (fun label a => symbols.get? label = some a) operand addr := by
  unfold resolveAddress
  by_cases hliteral : AddressLiteral operand.toList
  · rw [if_pos ((isAddressLiteral_iff _).mpr hliteral)]
    constructor
    · intro h
      -- an address literal has no sign, so the only number it can be is its value
      cases hparse : Numeral.parse .hexadecimal operand.toList with
      | error e => simp [hparse] at h
      | ok n =>
          obtain ⟨rfl, -⟩ := hliteral.parse_eq_ok_iff.mp hparse
          simp only [hparse] at h
          split at h
          · rename_i hlt
            have hsmall : Numeral.value 16 operand.toList < memorySize := Int.ofNat_lt.mp hlt
            cases h
            have hvalue := Word.toNat_ofInt hsmall
            exact .literal hliteral hvalue (by rw [hvalue]; exact hsmall)
          · cases h
    · intro h
      cases h with
      | label hno _ => exact absurd hliteral hno
      | literal _ hvalue hlt =>
          rw [hvalue] at hlt
          -- a number that is an address is far from the largest one that can be read
          have hlarge : (memorySize : Int) < 0x8000000000000000 := by decide
          have hparse : Numeral.parse .hexadecimal operand.toList =
              .ok (Numeral.value 16 operand.toList) :=
            hliteral.parse_eq_ok_iff.mpr ⟨rfl, Int.lt_trans (Int.ofNat_lt.mpr hlt) hlarge⟩
          simp only [hparse]
          rw [if_pos (Int.ofNat_lt.mpr hlt)]
          rw [UInt16.toNat_inj.mp (hvalue.trans (Word.toNat_ofInt hlt).symm)]
  · rw [if_neg (fun h => hliteral ((isAddressLiteral_iff _).mp h))]
    constructor
    · intro h
      cases hget : symbols.get? operand with
      | none => simp [hget] at h
      | some a =>
          simp only [hget, Except.ok.injEq] at h
          exact .label hliteral (by rw [hget, h])
    · intro h
      cases h with
      | literal hyes _ _ => exact absurd hyes hliteral
      | label _ hlabel => simp only [hlabel]

/-! ## Statements -/

/-- The word of an instruction: its operation code above its address. -/
def instructionWord (op : Opcode) (addr : Word) : Word :=
  (op.bits.toUInt16 <<< 12) ||| addr

/-- A statement stands for a word. -/
inductive Encodes (labels : String → Word → Prop) (statement : Statement) : Word → Prop
  /-- An instruction whose operand names an address. -/
  | address {operator : Operator} {op : Opcode} {operand : String} {addr : Word}
      (hoperator : Operator.ofName? statement.operator = some operator)
      (hinstr : operator = .instr op ∨ operator = .adr ∧ op = .jnS)
      (htakes : op.hasOperand = true) (hoperand : statement.operand = some operand)
      (hnames : Names labels operand addr) : Encodes labels statement (instructionWord op addr)
  /-- An instruction without an operand. -/
  | bare {op : Opcode} (hoperator : Operator.ofName? statement.operator = some (.instr op))
      (htakes : op.hasOperand = false) (hoperand : statement.operand = none) :
      Encodes labels statement (instructionWord op 0)
  /-- The short form for loading the immediate 0. -/
  | clear (hoperator : Operator.ofName? statement.operator = some .clear)
      (hoperand : statement.operand = none) :
      Encodes labels statement (instructionWord .loadImmi 0)
  /-- A word of data, which is the number modulo the size of a word. -/
  | data {form : DataForm} {text : String} {n : Int}
      (hoperator : Operator.ofName? statement.operator = some (.data form))
      (hoperand : statement.operand = some text) (hliteral : Literal form text.toList n)
      (hallows : form.Allows n) : Encodes labels statement (Word.ofInt n)

/-- A text is a literal of one number. -/
theorem Literal.unique {form : DataForm} {text : List Char} {n n' : Int}
    (h : Literal form text n) (h' : Literal form text n') : n = n' := by
  have hsplit : Numeral.splitSign form.radix text =
      ((Numeral.splitSign form.radix text).1, (Numeral.splitSign form.radix text).2) := rfl
  obtain ⟨-, -, rfl⟩ := (literal_iff hsplit).mp h
  obtain ⟨-, -, rfl⟩ := (literal_iff hsplit).mp h'
  rfl

/-- An operand names one address, if a label has one. -/
theorem Names.unique {labels : String → Word → Prop}
    (hlabels : ∀ label a b, labels label a → labels label b → a = b) {operand : String}
    {addr addr' : Word} (h : Names labels operand addr) (h' : Names labels operand addr') :
    addr = addr' := by
  cases h with
  | literal hliteral hvalue _ =>
      cases h' with
      | literal _ hvalue' _ => exact UInt16.toNat_inj.mp (hvalue.trans hvalue'.symm)
      | label hno _ => exact absurd hliteral hno
  | label hno hlabel =>
      cases h' with
      | literal hliteral _ _ => exact absurd hliteral hno
      | label _ hlabel' => exact hlabels operand addr addr' hlabel hlabel'

/-- A statement stands for one word, if a label has one address. -/
theorem Encodes.unique {labels : String → Word → Prop}
    (hlabels : ∀ label a b, labels label a → labels label b → a = b) {statement : Statement}
    {w w' : Word} (h : Encodes labels statement w) (h' : Encodes labels statement w') :
    w = w' := by
  have hoperator : ∀ {o o'}, Operator.ofName? statement.operator = some o →
      Operator.ofName? statement.operator = some o' → o = o' :=
    fun h h' => Option.some_inj.mp (h.symm.trans h')
  have hoperand : ∀ {o o'}, statement.operand = some o → statement.operand = some o' → o = o' :=
    fun h h' => Option.some_inj.mp (h.symm.trans h')
  -- two different ways to stand for a word differ in the operator or in having an operand
  cases h with
  | address ho hinstr _ hsome hnames =>
      cases h' with
      | address ho' hinstr' _ hsome' hnames' =>
          cases hoperand hsome hsome'
          cases hoperator ho ho'
          rw [hnames.unique hlabels hnames']
          rcases hinstr with rfl | ⟨rfl, rfl⟩
          · rcases hinstr' with hsame | ⟨hadr, -⟩
            · cases hsame
              rfl
            · cases hadr
          · rcases hinstr' with hinstr' | ⟨-, rfl⟩
            · cases hinstr'
            · rfl
      | bare _ _ hnone => cases hsome.symm.trans hnone
      | clear _ hnone => cases hsome.symm.trans hnone
      | data ho' _ _ _ =>
          cases hoperator ho ho'
          rcases hinstr with hinstr | ⟨hadr, -⟩
          · cases hinstr
          · cases hadr
  | bare ho _ hnone =>
      cases h' with
      | address _ _ _ hsome _ => cases hsome.symm.trans hnone
      | bare ho' _ _ =>
          cases hoperator ho ho'
          rfl
      | clear ho' _ => cases hoperator ho ho'
      | data ho' _ _ _ => cases hoperator ho ho'
  | clear ho hnone =>
      cases h' with
      | address _ _ _ hsome _ => cases hsome.symm.trans hnone
      | bare ho' _ _ => cases hoperator ho ho'
      | clear _ _ => rfl
      | data ho' _ _ _ => cases hoperator ho ho'
  | data ho hsome hliteral _ =>
      cases h' with
      | address ho' hinstr' _ _ _ =>
          cases hoperator ho ho'
          rcases hinstr' with hinstr' | ⟨hadr, -⟩
          · cases hinstr'
          · cases hadr
      | bare ho' _ _ => cases hoperator ho ho'
      | clear ho' _ => cases hoperator ho ho'
      | data ho' hsome' hliteral' _ =>
          cases hoperator ho ho'
          cases hoperand hsome hsome'
          rw [hliteral.unique hliteral']

/-- Only the low 12 bits of an operand count, and an address has no others. -/
theorem encode_eq_instructionWord (op : Opcode) {addr : Word} (h : addr.toNat < memorySize) :
    op.encode addr = instructionWord op addr := by
  rw [Opcode.encode, Word.low12_eq_self h, instructionWord]

section

variable {symbols : Table String Word} {statement : Statement} {w : Word}

/-- The labels of a table. -/
abbrev tableLabels (symbols : Table String Word) (label : String) (addr : Word) : Prop :=
  symbols.get? label = some addr

/-- An address that an operand names lies in memory, if those of the labels do. -/
theorem Names.lt (hlabels : ∀ label a, symbols.get? label = some a → a.toNat < memorySize)
    {operand : String} {addr : Word} (h : Names (tableLabels symbols) operand addr) :
    addr.toNat < memorySize := by
  cases h with
  | literal _ _ hlt => exact hlt
  | label _ hlabel => exact hlabels _ _ hlabel

/-- An instruction succeeds with the operand that its operation takes. -/
theorem encodeInstruction_eq_ok_iff
    (hlabels : ∀ label a, symbols.get? label = some a → a.toNat < memorySize) {op : Opcode} :
    statement.encodeInstruction symbols op = .ok w ↔
      (op.hasOperand = true ∧ ∃ operand addr, statement.operand = some operand ∧
        Names (tableLabels symbols) operand addr ∧ w = instructionWord op addr) ∨
      (op.hasOperand = false ∧ statement.operand = none ∧ w = instructionWord op 0) := by
  unfold Statement.encodeInstruction
  cases htakes : op.hasOperand with
  | false =>
      cases hoperand : statement.operand with
      | some operand => simp
      | none =>
          rw [encode_eq_instructionWord op (by decide)]
          simp [eq_comm]
  | true =>
      cases hoperand : statement.operand with
      | none => simp
      | some operand =>
          constructor
          · intro h
            cases hresolve : resolveAddress symbols operand with
            | error e => simp [hresolve] at h
            | ok addr =>
                have hnames := resolveAddress_eq_ok_iff.mp hresolve
                simp only [hresolve, Except.ok.injEq] at h
                rw [encode_eq_instructionWord op (hnames.lt hlabels)] at h
                exact .inl ⟨rfl, operand, addr, rfl, hnames, h.symm⟩
          · rintro (⟨-, _, addr, hsame, hnames, rfl⟩ | ⟨hfalse, -⟩)
            · cases hsame
              have hresolve := resolveAddress_eq_ok_iff.mpr hnames
              simp only [hresolve]
              rw [encode_eq_instructionWord op (hnames.lt hlabels)]
            · cases hfalse

/-- Encoding a statement succeeds exactly with the word that it stands for. -/
theorem Statement.encode_eq_ok_iff
    (hlabels : ∀ label a, symbols.get? label = some a → a.toNat < memorySize) :
    statement.encode symbols = .ok w ↔ Encodes (tableLabels symbols) statement w := by
  constructor
  · intro h
    cases hoperator : Operator.ofName? statement.operator with
    | none => simp [encode, hoperator] at h
    | some operator =>
        cases operator with
        | data form =>
            simp only [encode, hoperator] at h
            obtain ⟨text, n, hoperand, hliteral, hallows, rfl⟩ := encodeLiteral_eq_ok_iff.mp h
            exact .data hoperator hoperand hliteral hallows
        | clear =>
            simp only [encode, hoperator] at h
            cases hoperand : statement.operand with
            | some operand => simp [hoperand] at h
            | none =>
                simp only [hoperand, Except.ok.injEq] at h
                rw [← h, encode_eq_instructionWord _ (by decide)]
                exact .clear hoperator hoperand
        | adr =>
            simp only [encode, hoperator] at h
            rcases (encodeInstruction_eq_ok_iff hlabels).mp h with
              ⟨htakes, operand, addr, hoperand, hnames, rfl⟩ | ⟨hno, -⟩
            · exact .address hoperator (.inr ⟨rfl, rfl⟩) htakes hoperand hnames
            · cases hno
        | instr op =>
            simp only [encode, hoperator] at h
            rcases (encodeInstruction_eq_ok_iff hlabels).mp h with
              ⟨htakes, operand, addr, hoperand, hnames, rfl⟩ | ⟨htakes, hoperand, rfl⟩
            · exact .address hoperator (.inl rfl) htakes hoperand hnames
            · exact .bare hoperator htakes hoperand
  · intro h
    cases h with
    | @address operator op operand addr hoperator hinstr htakes hoperand hnames =>
        have hencode : statement.encodeInstruction symbols op =
            .ok (instructionWord op addr) :=
          (encodeInstruction_eq_ok_iff hlabels).mpr
            (.inl ⟨htakes, operand, addr, hoperand, hnames, rfl⟩)
        rcases hinstr with rfl | ⟨rfl, rfl⟩ <;> simp only [encode, hoperator, hencode]
    | @bare op hoperator htakes hoperand =>
        have hencode : statement.encodeInstruction symbols op = .ok (instructionWord op 0) :=
          (encodeInstruction_eq_ok_iff hlabels).mpr (.inr ⟨htakes, hoperand, rfl⟩)
        simp only [encode, hoperator, hencode]
    | clear hoperator hoperand =>
        simp only [encode, hoperator, hoperand]
        rw [encode_eq_instructionWord _ (by decide)]
    | data hoperator hoperand hliteral hallows =>
        simp only [encode, hoperator]
        exact encodeLiteral_eq_ok_iff.mpr ⟨_, _, hoperand, hliteral, hallows, rfl⟩

end

/-! ## Problems -/

/-- Whether the problem is one with the structure of the source, so that it is found when the
lines are laid out and not when the statements are encoded. -/
def AssemblyProblem.isStructural : AssemblyProblem → Bool
  | .unexpectedOrg | .incorrectForm | .labelStartsWithDigit | .labelHasWhitespace
  | .duplicateLabel _ _ | .programTooLarge => true
  | _ => false

/-- The problem of a data directive is not one with the structure. -/
theorem encodeLiteral_not_structural {form : DataForm} {operand : Option String}
    {problem : AssemblyProblem} (h : encodeLiteral form operand = .error problem) :
    problem.isStructural = false := by
  unfold encodeLiteral at h
  split at h
  · cases h
    rfl
  · split at h
    · cases h
      rfl
    · cases h
      rfl
    · split at h
      · cases h
      · cases h
        rfl

/-- The problem of an operand is not one with the structure. -/
theorem resolveAddress_not_structural {symbols : Table String Word} {operand : String}
    {problem : AssemblyProblem} (h : resolveAddress symbols operand = .error problem) :
    problem.isStructural = false := by
  unfold resolveAddress at h
  split at h
  · split at h
    · split at h
      · cases h
      · cases h
        rfl
    · cases h
      rfl
  · split at h
    · cases h
    · cases h
      rfl

/-- The problem of an instruction is not one with the structure. -/
theorem encodeInstruction_not_structural {symbols : Table String Word} {statement : Statement} {op : Opcode}
    {problem : AssemblyProblem} (h : statement.encodeInstruction symbols op = .error problem) :
    problem.isStructural = false := by
  unfold Statement.encodeInstruction at h
  split at h
  · split at h
    · cases h
    · rename_i hresolve
      cases h
      exact resolveAddress_not_structural hresolve
  · cases h
    rfl
  · cases h
    rfl
  · cases h

/-- Encoding a statement meets no problem with the structure of the source. -/
theorem Statement.encode_not_structural {symbols : Table String Word} {statement : Statement}
    {problem : AssemblyProblem} (h : statement.encode symbols = .error problem) :
    problem.isStructural = false := by
  unfold encode at h
  split at h
  · cases h
    rfl
  · exact encodeLiteral_not_structural h
  · split at h
    · cases h
      rfl
    · cases h
  · exact encodeInstruction_not_structural h
  · exact encodeInstruction_not_structural h

end Marie
