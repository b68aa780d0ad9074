import Chip8.Proofs.Bare.Operations
import Chip8.Proofs.Encoding
import Chip8.Proofs.Halting

/-! Which words are instructions. The table has thirty-four rows. A word that fits none of them halts
the machine, whatever the machine holds otherwise. -/
namespace Chip8

namespace Word

variable {w : UInt16} {a b c d : Fin 16} {row : String} {i : Instruction}

/-- In a row numerals and capitals are digits, and small letters stand for any digit. -/
def rows : List String := [
  "00E0", "00EE", "1nnn", "2nnn", "3xnn", "4xnn", "5xy0", "6xnn", "7xnn",
  "8xy0", "8xy1", "8xy2", "8xy3", "8xy4", "8xy5", "8xy6", "8xy7", "8xyE",
  "9xy0", "Annn", "Bnnn", "Cxnn", "Dxyn", "Ex9E", "ExA1",
  "Fx07", "Fx0A", "Fx15", "Fx18", "Fx1E", "Fx29", "Fx33", "Fx55", "Fx65"]

def digit? (c : Char) : Option (Fin 16) :=
  (List.finRange 16).find? fun d => (Nat.digitChar d).toUpper == c

def digits (w : UInt16) : List (Fin 16) := [Fin.ofNat 16 (family w), x w, y w, n w]

def Agrees : Option (Fin 16) → Fin 16 → Prop
  | some k, d => d = k
  | none, _ => True

/-- The word has the digits of the row where the row has any. -/
def Fits (row : String) (w : UInt16) : Prop := (row.toList.map digit?).Forall₂ Agrees (digits w)

def InTable (w : UInt16) : Prop := ∃ row ∈ rows, Fits row w

theorem digits_ofDigits (a b c d : Fin 16) : digits (ofDigits a b c d) = [a, b, c, d] := by
  simp [digits]

theorem fits_ofDigits {p q r s : Option (Fin 16)} (h : row.toList.map digit? = [p, q, r, s]) :
    Fits row (ofDigits a b c d) ↔ Agrees p a ∧ Agrees q b ∧ Agrees r c ∧ Agrees s d := by
  rw [Fits, h, digits_ofDigits]
  simp

theorem inTable_of_row (row : String) {p q r s : Option (Fin 16)} (hrow : row ∈ rows)
    (h : row.toList.map digit? = [p, q, r, s])
    (hd : Agrees p a ∧ Agrees q b ∧ Agrees r c ∧ Agrees s d) : InTable (ofDigits a b c d) :=
  ⟨row, hrow, (fits_ofDigits h).mpr hd⟩

theorem inTable_alu (op : AluOp) (x y : Fin 16) : InTable (ofDigits 8 x y op.digit) := by
  have hrow (row : String) (hrow : row ∈ rows)
      (h : row.toList.map digit? = [some 8, none, none, some op.digit]) :
      InTable (ofDigits 8 x y op.digit) := inTable_of_row row hrow h ⟨rfl, trivial, trivial, rfl⟩
  cases op with
  | copy => exact hrow "8xy0" (by decide) rfl
  | or => exact hrow "8xy1" (by decide) rfl
  | and => exact hrow "8xy2" (by decide) rfl
  | xor => exact hrow "8xy3" (by decide) rfl
  | add => exact hrow "8xy4" (by decide) rfl
  | sub => exact hrow "8xy5" (by decide) rfl
  | shiftRight => exact hrow "8xy6" (by decide) rfl
  | subFrom => exact hrow "8xy7" (by decide) rfl
  | shiftLeft => exact hrow "8xyE" (by decide) rfl

theorem inTable_of_spells (h : Spells w i) : InTable w := by
  cases h with
  | clear => exact inTable_of_row "00E0" (by decide) rfl ⟨rfl, rfl, rfl, rfl⟩
  | ret => exact inTable_of_row "00EE" (by decide) rfl ⟨rfl, rfl, rfl, rfl⟩
  | jump => exact inTable_of_row "1nnn" (by decide) rfl ⟨rfl, trivial, trivial, trivial⟩
  | call => exact inTable_of_row "2nnn" (by decide) rfl ⟨rfl, trivial, trivial, trivial⟩
  | equalByte => exact inTable_of_row "3xnn" (by decide) rfl ⟨rfl, trivial, trivial, trivial⟩
  | differByte => exact inTable_of_row "4xnn" (by decide) rfl ⟨rfl, trivial, trivial, trivial⟩
  | equal => exact inTable_of_row "5xy0" (by decide) rfl ⟨rfl, trivial, trivial, rfl⟩
  | setByte => exact inTable_of_row "6xnn" (by decide) rfl ⟨rfl, trivial, trivial, trivial⟩
  | addByte => exact inTable_of_row "7xnn" (by decide) rfl ⟨rfl, trivial, trivial, trivial⟩
  | alu op x y => exact inTable_alu op x y
  | differ => exact inTable_of_row "9xy0" (by decide) rfl ⟨rfl, trivial, trivial, rfl⟩
  | setIndex => exact inTable_of_row "Annn" (by decide) rfl ⟨rfl, trivial, trivial, trivial⟩
  | jumpOffset => exact inTable_of_row "Bnnn" (by decide) rfl ⟨rfl, trivial, trivial, trivial⟩
  | random => exact inTable_of_row "Cxnn" (by decide) rfl ⟨rfl, trivial, trivial, trivial⟩
  | draw => exact inTable_of_row "Dxyn" (by decide) rfl ⟨rfl, trivial, trivial, trivial⟩
  | keyHeld => exact inTable_of_row "Ex9E" (by decide) rfl ⟨rfl, trivial, rfl, rfl⟩
  | keyUp => exact inTable_of_row "ExA1" (by decide) rfl ⟨rfl, trivial, rfl, rfl⟩
  | readDelay => exact inTable_of_row "Fx07" (by decide) rfl ⟨rfl, trivial, rfl, rfl⟩
  | waitKey => exact inTable_of_row "Fx0A" (by decide) rfl ⟨rfl, trivial, rfl, rfl⟩
  | setDelay => exact inTable_of_row "Fx15" (by decide) rfl ⟨rfl, trivial, rfl, rfl⟩
  | setSound => exact inTable_of_row "Fx18" (by decide) rfl ⟨rfl, trivial, rfl, rfl⟩
  | addIndex => exact inTable_of_row "Fx1E" (by decide) rfl ⟨rfl, trivial, rfl, rfl⟩
  | glyph => exact inTable_of_row "Fx29" (by decide) rfl ⟨rfl, trivial, rfl, rfl⟩
  | decimal => exact inTable_of_row "Fx33" (by decide) rfl ⟨rfl, trivial, rfl, rfl⟩
  | save => exact inTable_of_row "Fx55" (by decide) rfl ⟨rfl, trivial, rfl, rfl⟩
  | restore => exact inTable_of_row "Fx65" (by decide) rfl ⟨rfl, trivial, rfl, rfl⟩

theorem spells_of_inTable (h : InTable w) : ∃ i, Spells w i := by
  obtain ⟨a, b, c, d, rfl⟩ := exists_digits w
  obtain ⟨row, hrow, hfits⟩ := h
  simp only [rows, List.mem_cons, List.not_mem_nil, or_false] at hrow
  rcases hrow with
    rfl | rfl | rfl | rfl | rfl | rfl | rfl | rfl | rfl |
    rfl | rfl | rfl | rfl | rfl | rfl | rfl | rfl | rfl |
    rfl | rfl | rfl | rfl | rfl | rfl | rfl |
    rfl | rfl | rfl | rfl | rfl | rfl | rfl | rfl | rfl
  · obtain ⟨rfl, rfl, rfl, rfl⟩ := (fits_ofDigits rfl).mp hfits
    exact ⟨_, .clear⟩
  · obtain ⟨rfl, rfl, rfl, rfl⟩ := (fits_ofDigits rfl).mp hfits
    exact ⟨_, .ret⟩
  · obtain ⟨rfl, -, -, -⟩ := (fits_ofDigits rfl).mp hfits
    exact ⟨_, .jump b c d⟩
  · obtain ⟨rfl, -, -, -⟩ := (fits_ofDigits rfl).mp hfits
    exact ⟨_, .call b c d⟩
  · obtain ⟨rfl, -, -, -⟩ := (fits_ofDigits rfl).mp hfits
    exact ⟨_, .equalByte b c d⟩
  · obtain ⟨rfl, -, -, -⟩ := (fits_ofDigits rfl).mp hfits
    exact ⟨_, .differByte b c d⟩
  · obtain ⟨rfl, -, -, rfl⟩ := (fits_ofDigits rfl).mp hfits
    exact ⟨_, .equal b c⟩
  · obtain ⟨rfl, -, -, -⟩ := (fits_ofDigits rfl).mp hfits
    exact ⟨_, .setByte b c d⟩
  · obtain ⟨rfl, -, -, -⟩ := (fits_ofDigits rfl).mp hfits
    exact ⟨_, .addByte b c d⟩
  · obtain ⟨rfl, -, -, rfl⟩ := (fits_ofDigits rfl).mp hfits
    exact ⟨_, .alu .copy b c⟩
  · obtain ⟨rfl, -, -, rfl⟩ := (fits_ofDigits rfl).mp hfits
    exact ⟨_, .alu .or b c⟩
  · obtain ⟨rfl, -, -, rfl⟩ := (fits_ofDigits rfl).mp hfits
    exact ⟨_, .alu .and b c⟩
  · obtain ⟨rfl, -, -, rfl⟩ := (fits_ofDigits rfl).mp hfits
    exact ⟨_, .alu .xor b c⟩
  · obtain ⟨rfl, -, -, rfl⟩ := (fits_ofDigits rfl).mp hfits
    exact ⟨_, .alu .add b c⟩
  · obtain ⟨rfl, -, -, rfl⟩ := (fits_ofDigits rfl).mp hfits
    exact ⟨_, .alu .sub b c⟩
  · obtain ⟨rfl, -, -, rfl⟩ := (fits_ofDigits rfl).mp hfits
    exact ⟨_, .alu .shiftRight b c⟩
  · obtain ⟨rfl, -, -, rfl⟩ := (fits_ofDigits rfl).mp hfits
    exact ⟨_, .alu .subFrom b c⟩
  · obtain ⟨rfl, -, -, rfl⟩ := (fits_ofDigits rfl).mp hfits
    exact ⟨_, .alu .shiftLeft b c⟩
  · obtain ⟨rfl, -, -, rfl⟩ := (fits_ofDigits rfl).mp hfits
    exact ⟨_, .differ b c⟩
  · obtain ⟨rfl, -, -, -⟩ := (fits_ofDigits rfl).mp hfits
    exact ⟨_, .setIndex b c d⟩
  · obtain ⟨rfl, -, -, -⟩ := (fits_ofDigits rfl).mp hfits
    exact ⟨_, .jumpOffset b c d⟩
  · obtain ⟨rfl, -, -, -⟩ := (fits_ofDigits rfl).mp hfits
    exact ⟨_, .random b c d⟩
  · obtain ⟨rfl, -, -, -⟩ := (fits_ofDigits rfl).mp hfits
    exact ⟨_, .draw b c d⟩
  · obtain ⟨rfl, -, rfl, rfl⟩ := (fits_ofDigits rfl).mp hfits
    exact ⟨_, .keyHeld b⟩
  · obtain ⟨rfl, -, rfl, rfl⟩ := (fits_ofDigits rfl).mp hfits
    exact ⟨_, .keyUp b⟩
  · obtain ⟨rfl, -, rfl, rfl⟩ := (fits_ofDigits rfl).mp hfits
    exact ⟨_, .readDelay b⟩
  · obtain ⟨rfl, -, rfl, rfl⟩ := (fits_ofDigits rfl).mp hfits
    exact ⟨_, .waitKey b⟩
  · obtain ⟨rfl, -, rfl, rfl⟩ := (fits_ofDigits rfl).mp hfits
    exact ⟨_, .setDelay b⟩
  · obtain ⟨rfl, -, rfl, rfl⟩ := (fits_ofDigits rfl).mp hfits
    exact ⟨_, .setSound b⟩
  · obtain ⟨rfl, -, rfl, rfl⟩ := (fits_ofDigits rfl).mp hfits
    exact ⟨_, .addIndex b⟩
  · obtain ⟨rfl, -, rfl, rfl⟩ := (fits_ofDigits rfl).mp hfits
    exact ⟨_, .glyph b⟩
  · obtain ⟨rfl, -, rfl, rfl⟩ := (fits_ofDigits rfl).mp hfits
    exact ⟨_, .decimal b⟩
  · obtain ⟨rfl, -, rfl, rfl⟩ := (fits_ofDigits rfl).mp hfits
    exact ⟨_, .save b⟩
  · obtain ⟨rfl, -, rfl, rfl⟩ := (fits_ofDigits rfl).mp hfits
    exact ⟨_, .restore b⟩

theorem inTable_iff : InTable w ↔ ∃ i, Spells w i := by
  constructor
  · exact spells_of_inTable
  · rintro ⟨i, hi⟩
    exact inTable_of_spells hi

theorem not_inTable_iff : ¬ InTable w ↔ Instruction.decode w = none := by
  rw [Instruction.decode_eq_none_iff, inTable_iff, not_exists]

end Word

namespace Machine

variable {m r : Machine}

/-- The machine has halted at a word that is no instruction. -/
def Unrecognized (m : Machine) : Prop := ∃ f, m.fault = some f ∧ f.kind = .unrecognizedOpcode

theorem faultKind?_unrecognized_iff :
    m.faultKind? = some .unrecognizedOpcode ↔ ¬ Word.InTable m.fetch := by
  rw [Word.not_inTable_iff]
  constructor
  · intro h
    rcases faultKind?_eq_some h with ⟨-, hnone⟩ | ⟨-, hmisuse⟩
    · exact hnone
    · rcases hmisuse with ⟨hkind, -⟩ | ⟨hkind, -⟩
      · cases hkind
      · cases hkind
  · exact faultKind?_of_no_instruction

theorem unrecognized_cycle (hm : m.fault = none) :
    m.cycle.Unrecognized ↔ ¬ Word.InTable m.fetch := by
  rw [← faultKind?_unrecognized_iff, Unrecognized, cycle_fault hm]
  constructor
  · rintro ⟨f, hf, hkind⟩
    obtain ⟨kind, hk, rfl⟩ := Option.map_eq_some_iff.mp hf
    rw [hk, ← hkind]
  · intro h
    exact ⟨⟨.unrecognizedOpcode, m.fetch, m.pc⟩, by rw [h]; rfl, rfl⟩

theorem unrecognized_step (h : m.step.1 = true) :
    m.step.2.Unrecognized ↔ ¬ Word.InTable m.fetch := by
  obtain ⟨r, hr⟩ := ready?_of_executed h
  rw [step_of_ready hr, ← ready?_fetch hr]
  exact unrecognized_cycle (ready?_fault hr)

/-- A step that executes a word halts the machine at it as no instruction if, and only if, the word
fits no row of the table. Nothing but the word counts: of two machines at the same word, with other
registers, stores, keys, timers and modes, both are halted so or neither. On bare numbers, where the
digits are told apart one after the other, the step does the same. -/
theorem step_recognizes_table :
    (∀ m : Machine, m.step.1 = true →
      let s := m.step.2
      (s.Unrecognized ↔ ¬ Word.InTable m.fetch) ∧
      (s.Unrecognized → s.fault = some ⟨.unrecognizedOpcode, m.fetch, m.pc⟩) ∧
      Bare.step m.bare = (.ok true, s.bare)) ∧
    ∀ m n : Machine, m.step.1 = true → n.step.1 = true → n.fetch = m.fetch →
      (n.step.2.Unrecognized ↔ m.step.2.Unrecognized) := by
  refine ⟨fun m h => ⟨unrecognized_step h, ?_, ?_⟩, fun m n hm hn hword => ?_⟩
  · rintro ⟨f, hf, hkind⟩
    obtain ⟨r, hr⟩ := ready?_of_executed h
    obtain ⟨d, -, -, hword, hplace, -⟩ := step_of_fault (ready?_cases hr).1 hf
    rw [hf, ← hkind, ← hword, ← hplace]
  · have hbare := Bare.does_step m
    rw [h] at hbare
    exact hbare
  · rw [unrecognized_step hn, unrecognized_step hm, hword]

/-- A strict machine that waits with the key B held, before the word that `bytes` spell at an odd
address. -/
def waitingBefore (high low : Int) : List Operation :=
  [.poke 0x301 high, .poke 0x302 low, .setPc 0x301, .setWaiting (some 4), .setKey 0xB true]

set_option maxRecDepth 100000 in
/-- There 5451 is no instruction, nor is it for a lenient machine that waits for nothing. A return
from no call is one, though it halts the machine too. -/
theorem odd_compare_is_unrecognized :
    let start := initial { strict := true } (.listed [0] 0)
    let m := start.after (waitingBefore 0x54 0x51)
    let n := (initial {} (.listed [7] 0)).after [.load [0x54, 0x51], .setRegister 4 9]
    let r := start.after (waitingBefore 0x00 0xEE)
    (m.step.1 = true ∧ n.step.1 = true ∧ n.fetch = m.fetch) ∧
      (¬ Word.InTable m.fetch ∧ m.step.2.fault = some ⟨.unrecognizedOpcode, 0x5451, 0x301⟩) ∧
      n.step.2.Unrecognized ∧
      (r.step.1 = true ∧ Word.InTable r.fetch ∧ r.step.2.halted = true ∧
        ¬ r.step.2.Unrecognized) := by
  intro start m n r
  have hm : m.step.1 = true ∧ m.fetch = 0x5451 ∧ m.pc = 0x301 := by decide +kernel
  have hn : n.step.1 = true ∧ n.fetch = 0x5451 := by decide +kernel
  have hr : r.step.1 = true ∧ r.fetch = 0x00EE ∧ r.step.2.halted = true := by decide +kernel
  obtain ⟨hstep, hword, hplace⟩ := hm
  obtain ⟨hrecognizes, hsame⟩ := step_recognizes_table
  have hnot : ¬ Word.InTable m.fetch := by
    rw [Word.not_inTable_iff, hword]
    rfl
  have hreturn : Word.InTable r.fetch := by
    rw [hr.2.1]
    exact Word.inTable_of_spells .ret
  obtain ⟨hiff, hfault, -⟩ := hrecognizes m hstep
  have hunrecognized := hiff.mpr hnot
  have hfault' := hfault hunrecognized
  rw [hword, hplace] at hfault'
  have hsameWord : n.fetch = m.fetch := hn.2.trans hword.symm
  refine ⟨⟨hstep, hn.1, hsameWord⟩, ⟨hnot, hfault'⟩,
    (hsame m n hstep hn.1 hsameWord).mpr hunrecognized, hr.1, hreturn, hr.2.2, ?_⟩
  intro hbad
  exact (hrecognizes r hr.1).1.mp hbad hreturn

end Machine

end Chip8
