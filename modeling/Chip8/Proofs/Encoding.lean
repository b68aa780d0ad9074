import Chip8.Proofs.Execution
import Mathlib.Tactic.IntervalCases

/-! The table of instructions: words by their four digits, and what they ask for. To decode a word
is to look it up there. -/
namespace Chip8

namespace Word

variable {w : UInt16} {a b c d : Fin 16}

/-- The word with these four digits. -/
def ofDigits (a b c d : Fin 16) : UInt16 := UInt16.ofNat (4096 * a + 256 * b + 16 * c + d)

/-- The byte with these two digits. -/
def ofPair (c d : Fin 16) : UInt8 := UInt8.ofNat (16 * c + d)

theorem toNat_ofDigits (a b c d : Fin 16) :
    (ofDigits a b c d).toNat = 4096 * a + 256 * b + 16 * c + d := by
  rw [ofDigits, UInt16.toNat_ofNat']
  omega

theorem toNat_ofPair (c d : Fin 16) : (ofPair c d).toNat = 16 * c + d := by
  rw [ofPair, UInt8.toNat_ofNat']
  omega

@[simp] theorem family_ofDigits (a b c d : Fin 16) : family (ofDigits a b c d) = a := by
  rw [family, toNat_ofDigits]
  omega

@[simp] theorem x_ofDigits (a b c d : Fin 16) : x (ofDigits a b c d) = b := by
  apply Fin.ext
  simp only [x, toNat_ofDigits]
  omega

@[simp] theorem y_ofDigits (a b c d : Fin 16) : y (ofDigits a b c d) = c := by
  apply Fin.ext
  simp only [y, toNat_ofDigits]
  omega

@[simp] theorem n_ofDigits (a b c d : Fin 16) : n (ofDigits a b c d) = d := by
  apply Fin.ext
  simp only [n, toNat_ofDigits]
  omega

theorem toNat_ofDigits_mod (a b c d : Fin 16) :
    (ofDigits a b c d).toNat % 256 = 16 * c + d := by
  rw [toNat_ofDigits]
  omega

@[simp] theorem byte_ofDigits (a b c d : Fin 16) : byte (ofDigits a b c d) = ofPair c d := by
  rw [byte, toNat_ofDigits_mod, ofPair]

theorem toNat_target (b c d : Fin 16) : (ofDigits 0 b c d).toNat = 256 * b + 16 * c + d := by
  have hzero : ((0 : Fin 16) : Nat) = 0 := rfl
  rw [toNat_ofDigits, hzero]
  omega

@[simp] theorem address_ofDigits (a b c d : Fin 16) :
    address (ofDigits a b c d) = ofDigits 0 b c d := by
  apply UInt16.toNat_inj.mp
  rw [address, UInt16.toNat_ofNat', toNat_ofDigits, toNat_target]
  omega

theorem exists_digits (w : UInt16) : ∃ a b c d, w = ofDigits a b c d := by
  have hw := w.toNat_lt
  refine ⟨⟨w.toNat / 4096, by omega⟩, x w, y w, n w, ?_⟩
  apply UInt16.toNat_inj.mp
  simp only [toNat_ofDigits, x, y, n]
  omega

end Word

/-- The last digit of the word. -/
def AluOp.digit : AluOp → Fin 16
  | copy => 0
  | or => 1
  | and => 2
  | xor => 3
  | add => 4
  | sub => 5
  | shiftRight => 6
  | subFrom => 7
  | shiftLeft => 0xE

theorem AluOp.ofDigit?_digit (op : AluOp) : ofDigit? op.digit = some op := by
  cases op <;> rfl

theorem AluOp.eq_digit {op : AluOp} {d : Fin 16} (h : ofDigit? d = some op) : d = op.digit := by
  apply Fin.ext
  unfold ofDigit? at h
  split at h
  all_goals cases h
  all_goals assumption

open Word (ofDigits ofPair)

/-- The table of instructions. Digits that tell instructions apart stand as numerals, and the others
name registers or go into a byte or an address. -/
inductive Word.Spells : UInt16 → Instruction → Prop
  | clear : Spells (ofDigits 0 0 0xE 0) .clear
  | ret : Spells (ofDigits 0 0 0xE 0xE) .ret
  | jump (b c d : Fin 16) : Spells (ofDigits 1 b c d) (.jump (ofDigits 0 b c d))
  | call (b c d : Fin 16) : Spells (ofDigits 2 b c d) (.call (ofDigits 0 b c d))
  | equalByte (x c d : Fin 16) : Spells (ofDigits 3 x c d) (.skip (.equalByte x (ofPair c d)))
  | differByte (x c d : Fin 16) : Spells (ofDigits 4 x c d) (.skip (.differByte x (ofPair c d)))
  | equal (x y : Fin 16) : Spells (ofDigits 5 x y 0) (.skip (.equal x y))
  | setByte (x c d : Fin 16) : Spells (ofDigits 6 x c d) (.setByte x (ofPair c d))
  | addByte (x c d : Fin 16) : Spells (ofDigits 7 x c d) (.addByte x (ofPair c d))
  | alu (op : AluOp) (x y : Fin 16) : Spells (ofDigits 8 x y op.digit) (.alu op x y)
  | differ (x y : Fin 16) : Spells (ofDigits 9 x y 0) (.skip (.differ x y))
  | setIndex (b c d : Fin 16) : Spells (ofDigits 0xA b c d) (.setIndex (ofDigits 0 b c d))
  | jumpOffset (b c d : Fin 16) : Spells (ofDigits 0xB b c d) (.jumpOffset (ofDigits 0 b c d))
  | random (x c d : Fin 16) : Spells (ofDigits 0xC x c d) (.random x (ofPair c d))
  | draw (x y height : Fin 16) : Spells (ofDigits 0xD x y height) (.draw x y height)
  | keyHeld (x : Fin 16) : Spells (ofDigits 0xE x 9 0xE) (.skip (.keyHeld x))
  | keyUp (x : Fin 16) : Spells (ofDigits 0xE x 0xA 1) (.skip (.keyUp x))
  | readDelay (x : Fin 16) : Spells (ofDigits 0xF x 0 7) (.readDelay x)
  | waitKey (x : Fin 16) : Spells (ofDigits 0xF x 0 0xA) (.waitKey x)
  | setDelay (x : Fin 16) : Spells (ofDigits 0xF x 1 5) (.setDelay x)
  | setSound (x : Fin 16) : Spells (ofDigits 0xF x 1 8) (.setSound x)
  | addIndex (x : Fin 16) : Spells (ofDigits 0xF x 1 0xE) (.addIndex x)
  | glyph (x : Fin 16) : Spells (ofDigits 0xF x 2 9) (.glyph x)
  | decimal (x : Fin 16) : Spells (ofDigits 0xF x 3 3) (.decimal x)
  | save (x : Fin 16) : Spells (ofDigits 0xF x 5 5) (.save x)
  | restore (x : Fin 16) : Spells (ofDigits 0xF x 6 5) (.restore x)

namespace Instruction

variable {w : UInt16} {i : Instruction}

theorem decode_of_spells (h : Word.Spells w i) : decode w = some i := by
  cases h with
  | clear | ret => rfl
  | alu op x y =>
    have hop := op.ofDigit?_digit
    simp only [decode, Word.family_ofDigits, Word.n_ofDigits, Word.x_ofDigits, Word.y_ofDigits]
    exact congrArg (Option.map _) hop
  | _ =>
    simp only [decode, Word.family_ofDigits, Word.x_ofDigits, Word.y_ofDigits, Word.n_ofDigits,
      Word.byte_ofDigits, Word.address_ofDigits, Word.toNat_ofDigits_mod]
    rfl

theorem spells_of_ofMisc? {x c d : Fin 16} (h : ofMisc? x (16 * c + d) = some i) :
    Word.Spells (ofDigits 0xF x c d) i := by
  have hpair : ∀ c' d' : Fin 16, (16 * c + d : Nat) = 16 * c' + d' → c = c' ∧ d = d' := by
    intro c' d' he
    omega
  unfold ofMisc? at h
  split at h
  case h_10 => cases h
  all_goals cases h
  all_goals rename_i he
  · obtain ⟨rfl, rfl⟩ := hpair 0 7 he
    exact .readDelay x
  · obtain ⟨rfl, rfl⟩ := hpair 0 0xA he
    exact .waitKey x
  · obtain ⟨rfl, rfl⟩ := hpair 1 5 he
    exact .setDelay x
  · obtain ⟨rfl, rfl⟩ := hpair 1 8 he
    exact .setSound x
  · obtain ⟨rfl, rfl⟩ := hpair 1 0xE he
    exact .addIndex x
  · obtain ⟨rfl, rfl⟩ := hpair 2 9 he
    exact .glyph x
  · obtain ⟨rfl, rfl⟩ := hpair 3 3 he
    exact .decimal x
  · obtain ⟨rfl, rfl⟩ := hpair 5 5 he
    exact .save x
  · obtain ⟨rfl, rfl⟩ := hpair 6 5 he
    exact .restore x

theorem spells_of_decode (h : decode w = some i) : Word.Spells w i := by
  obtain ⟨a, b, c, d, rfl⟩ := Word.exists_digits w
  have hpair : ∀ c' d' : Fin 16, ofPair c d = ofPair c' d' → c = c' ∧ d = d' := by
    intro c' d' he
    have hn := congrArg UInt8.toNat he
    rw [Word.toNat_ofPair, Word.toNat_ofPair] at hn
    omega
  simp only [decode, Word.family_ofDigits, Word.x_ofDigits, Word.y_ofDigits, Word.n_ofDigits,
    Word.byte_ofDigits, Word.address_ofDigits, Word.toNat_ofDigits_mod] at h
  obtain ⟨k, hk⟩ := a
  -- Family by family, from 0x0 to 0xF.
  interval_cases k
  · by_cases hclear : ofDigits 0 b c d = 0x00E0
    · cases (if_pos hclear).symm.trans h
      exact hclear ▸ .clear
    · obtain ⟨hret, hi⟩ := Option.ite_none_right_eq_some.mp ((if_neg hclear).symm.trans h)
      cases hi
      exact hret ▸ .ret
  · cases h
    exact .jump b c d
  · cases h
    exact .call b c d
  · cases h
    exact .equalByte b c d
  · cases h
    exact .differByte b c d
  · obtain ⟨rfl, hi⟩ := Option.ite_none_right_eq_some.mp h
    cases hi
    exact .equal b c
  · cases h
    exact .setByte b c d
  · cases h
    exact .addByte b c d
  · obtain ⟨op, hop, rfl⟩ := Option.map_eq_some_iff.mp h
    rw [AluOp.eq_digit hop]
    exact .alu op b c
  · obtain ⟨rfl, hi⟩ := Option.ite_none_right_eq_some.mp h
    cases hi
    exact .differ b c
  · cases h
    exact .setIndex b c d
  · cases h
    exact .jumpOffset b c d
  · cases h
    exact .random b c d
  · cases h
    exact .draw b c d
  · by_cases hheld : ofPair c d = ofPair 9 0xE
    · obtain ⟨rfl, rfl⟩ := hpair 9 0xE hheld
      cases h
      exact .keyHeld b
    · obtain ⟨hup, hi⟩ := Option.ite_none_right_eq_some.mp ((if_neg hheld).symm.trans h)
      obtain ⟨rfl, rfl⟩ := hpair 0xA 1 hup
      cases hi
      exact .keyUp b
  · exact spells_of_ofMisc? h

theorem decode_eq_some_iff : decode w = some i ↔ Word.Spells w i :=
  ⟨spells_of_decode, decode_of_spells⟩

theorem decode_eq_none_iff : decode w = none ↔ ∀ i, ¬ Word.Spells w i := by
  simp only [← decode_eq_some_iff]
  exact Option.eq_none_iff_forall_ne_some

end Instruction

namespace Machine

variable {m r : Machine} {w : UInt16} {i : Instruction}

theorem executeWord_of_spells (h : Word.Spells w i) (m : Machine) (address : UInt16) :
    m.executeWord w address = m.execute w address i := by
  simp only [executeWord, Instruction.decode_of_spells h]

theorem step_of_spells (hr : m.ready? = some r) (hw : r.fetch = w) (h : Word.Spells w i) :
    m.step.2 = ((r.setPc (r.pc + 2)).execute r.fetch r.pc i).countStep := by
  subst hw
  rw [step_of_ready hr]
  exact cycle_of_instruction (Instruction.decode_of_spells h)

end Machine

end Chip8
