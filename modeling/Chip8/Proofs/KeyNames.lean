import Chip8.Proofs.Keys
import Mathlib.Data.List.DropRight

/-! Names of keys. Which names there are, and what of a name is of no account. -/
namespace Chip8

namespace Text

variable {p : Char → Bool} {c : Char} {cs before after : List Char} {v : Nat}

/-- `s` is `cs` without the blanks around it. -/
structure Stripped (cs s : List Char) : Prop where
  padded : ∃ before after, cs = before ++ s ++ after ∧ ∀ c ∈ before ++ after, isBlank c = true
  first : ∀ c ∈ s.head?, isBlank c = false
  last : ∀ c ∈ s.getLast?, isBlank c = false

theorem trimBoth_eq (p : Char → Bool) (cs : List Char) :
    trimBoth p cs = (cs.dropWhile p).rdropWhile p := rfl

theorem stripped_strip (cs : List Char) : Stripped cs (strip cs) where
  padded := by
    refine ⟨cs.takeWhile isBlank, (cs.dropWhile isBlank).rtakeWhile isBlank, ?_, fun c hc => ?_⟩
    · rw [strip, trimBoth_eq, List.append_assoc, List.rdropWhile_append_rtakeWhile,
        List.takeWhile_append_dropWhile]
    · rcases List.mem_append.mp hc with hc | hc
      · exact List.mem_takeWhile_imp hc
      · exact List.mem_rtakeWhile_imp hc
  first c hc := by
    obtain ⟨after, h⟩ := List.rdropWhile_prefix isBlank (cs.dropWhile isBlank)
    have hhead : (cs.dropWhile isBlank).head? = some c := by
      rw [← h, List.head?_append, ← trimBoth_eq, ← strip, Option.mem_def.mp hc]
      rfl
    have hnot := List.head?_dropWhile_not isBlank cs
    rw [hhead] at hnot
    exact hnot
  last c hc := by
    have hne : strip cs ≠ [] := by
      intro h
      rw [h] at hc
      cases hc
    have hnot := List.rdropWhile_last_not isBlank (cs.dropWhile isBlank) hne
    rw [List.getLast?_eq_some_getLast hne, Option.mem_some_iff] at hc
    rw [← hc]
    exact Bool.eq_false_iff.mpr hnot

theorem trimBoth_padded (hb : ∀ c ∈ before, p c = true) (ha : ∀ c ∈ after, p c = true)
    (cs : List Char) : trimBoth p (before ++ cs ++ after) = trimBoth p cs := by
  have hafter : after.dropWhile p = [] := List.dropWhile_eq_nil_iff.mpr ha
  rw [trimBoth, trimBoth, List.append_assoc, List.dropWhile_append_of_pos hb,
    List.dropWhile_append]
  split
  · rename_i h
    rw [hafter, List.isEmpty_iff.mp h]
  · have hreverse : ∀ c ∈ after.reverse, p c = true := fun c hc => ha c (List.mem_reverse.mp hc)
    rw [List.reverse_append, List.dropWhile_append_of_pos hreverse]

theorem trimBoth_map {f : Char → Char} (h : ∀ c, p (f c) = p c) (cs : List Char) :
    trimBoth p (cs.map f) = (trimBoth p cs).map f := by
  have hp : p ∘ f = p := funext h
  rw [trimBoth, trimBoth, List.dropWhile_map, hp, ← List.map_reverse, List.dropWhile_map, hp,
    List.map_reverse]

/-- Only the small letters from a to z change, by 32. -/
theorem toUpper_cases (c : Char) : c.toUpper = c ∨
    ((0x61 ≤ c.toNat ∧ c.toNat ≤ 0x7A) ∧ c.toUpper.toNat + 32 = c.toNat) := by
  unfold Char.toUpper
  split
  · rename_i h
    have hlo : 0x61 ≤ c.val.toNat := UInt32.le_iff_toNat_le.mp h.1
    have hhi : c.val.toNat ≤ 0x7A := UInt32.le_iff_toNat_le.mp h.2
    have hval : (c.val + ('A'.val - 'a'.val)).toNat = (c.val.toNat + 4294967264) % 4294967296 :=
      UInt32.toNat_add c.val ('A'.val - 'a'.val)
    refine .inr ⟨⟨hlo, hhi⟩, ?_⟩
    change (c.val + ('A'.val - 'a'.val)).toNat + 32 = c.val.toNat
    omega
  · exact .inl rfl

theorem isBlank_eq_false (h : 0x21 ≤ c.toNat ∧ c.toNat ≤ 0x7F) : isBlank c = false := by
  simp only [isBlank, blankRuns, List.any_cons, List.any_nil, Bool.or_false, Bool.or_eq_false_iff,
    Bool.and_eq_false_iff, decide_eq_false_iff_not]
  omega

theorem isBlank_toUpper (c : Char) : isBlank c.toUpper = isBlank c := by
  rcases toUpper_cases c with h | ⟨hc, h⟩
  · rw [h]
  · rw [isBlank_eq_false (c := c.toUpper) (by omega), isBlank_eq_false (by omega)]

/-- No character below the small letters has another one in upper case. -/
theorem upperChar_of_lt (h : c.toNat < 0x61) : upperChar c = [c] := by
  have hruns : ∀ run ∈ upperRuns, 0x61 ≤ run.1 := by decide +kernel
  have hexpansions : ∀ e ∈ upperExpansions, 0x61 ≤ e.1 := by decide +kernel
  have hshifted : shiftedUpper? c.toNat = none := by
    rw [shiftedUpper?, Option.map_eq_none_iff, List.find?_eq_none]
    intro run hrun
    have hlo := hruns run hrun
    simp only [Bool.and_eq_true, decide_eq_true_eq]
    omega
  have hexpanded : upperExpansions.lookup c.toNat = none := by
    rw [List.lookup_eq_none_iff]
    intro e he
    have hlo := hexpansions e he
    rw [bne_iff_ne]
    omega
  rw [upperChar, hshifted, hexpanded]
  rfl

theorem upperChar_of_small (h : 0x61 ≤ c.toNat ∧ c.toNat ≤ 0x7A)
    (hu : c.toUpper.toNat + 32 = c.toNat) : upperChar c = [c.toUpper] := by
  have hshifted : shiftedUpper? c.toNat = some c.toUpper.toNat := by
    rw [shiftedUpper?, upperRuns, List.find?_cons_of_pos]
    · simp only [Option.map_some]
      congr 1
      omega
    · simp [h, Nat.mod_one]
  rw [upperChar, hshifted]
  simp only [Char.ofNat_toNat]

theorem upperChar_toUpper (c : Char) : upperChar c.toUpper = upperChar c := by
  rcases toUpper_cases c with h | ⟨hc, h⟩
  · rw [h]
  · rw [upperChar_of_lt (by omega), upperChar_of_small hc h]

/-- The runs of ten digits do not overlap. -/
theorem digitZeros_apart :
    ∀ a ∈ digitZeros, ∀ b ∈ digitZeros, a < b → a + 10 ≤ b := by decide +kernel

theorem digitValue?_eq_some_iff : digitValue? c = some v ↔
    ∃ base ∈ digitZeros, v < 10 ∧ c.toNat = base + v := by
  rw [digitValue?, Option.map_eq_some_iff]
  constructor
  · rintro ⟨base, hfind, rfl⟩
    have hin := List.find?_some hfind
    simp only [Bool.and_eq_true, decide_eq_true_eq] at hin
    exact ⟨base, List.mem_of_find?_eq_some hfind, by omega, by omega⟩
  · rintro ⟨base, hbase, hv, hc⟩
    cases hfind : digitZeros.find? fun first => first ≤ c.toNat && c.toNat < first + 10 with
    | none =>
      have hnot := List.find?_eq_none.mp hfind base hbase
      simp only [Bool.and_eq_true, decide_eq_true_eq] at hnot
      omega
    | some first =>
      have hin := List.find?_some hfind
      simp only [Bool.and_eq_true, decide_eq_true_eq] at hin
      have hfirst := List.mem_of_find?_eq_some hfind
      have hbelow := digitZeros_apart first hfirst base hbase
      have habove := digitZeros_apart base hbase first hfirst
      exact ⟨first, rfl, by omega⟩

end Text

namespace KeyLayout

variable {layout : KeyLayout} {name other : String} {c : Char} {cs : List Char} {k : Key}

/-- The character `c` is a hexadecimal digit, with the value `k`. -/
inductive HexDigit (c : Char) (k : Key) : Prop
  /-- A decimal digit of any script. -/
  | decimal {base : Nat} (script : base ∈ Text.digitZeros) (small : (k : Nat) < 10)
      (place : c.toNat = base + k)
  /-- A letter from A to F. -/
  | letter {j : Nat} (value : (k : Nat) = 10 + j) (place : c.toNat = 0x41 + j)

theorem hexKey?_of_decimal (h : ∀ j < 6, c.toNat ≠ 0x41 + j) :
    hexKey? c = (Text.digitValue? c).map (Fin.ofNat 16) := by
  unfold hexKey?
  split
  · exact absurd rfl (h 0 (by decide))
  · exact absurd rfl (h 1 (by decide))
  · exact absurd rfl (h 2 (by decide))
  · exact absurd rfl (h 3 (by decide))
  · exact absurd rfl (h 4 (by decide))
  · exact absurd rfl (h 5 (by decide))
  · rfl

theorem hexKey?_of_letter {j : Nat} (h : j < 6) (hc : c.toNat = 0x41 + j) :
    hexKey? c = some (Fin.ofNat 16 (10 + j)) := by
  rw [← c.ofNat_toNat, hc]
  interval_cases j <;> rfl

theorem hexKey?_eq_some_iff : hexKey? c = some k ↔ HexDigit c k := by
  have hscripts : ∀ base ∈ Text.digitZeros, base = 0x30 ∨ 0x660 ≤ base := by decide +kernel
  constructor
  · intro h
    by_cases hletter : ∃ j < 6, c.toNat = 0x41 + j
    · obtain ⟨j, hj, hc⟩ := hletter
      rw [hexKey?_of_letter hj hc, Option.some.injEq] at h
      subst h
      exact .letter (Nat.mod_eq_of_lt (by omega)) hc
    · rw [hexKey?_of_decimal (by simpa using hletter), Option.map_eq_some_iff] at h
      obtain ⟨v, hv, rfl⟩ := h
      obtain ⟨base, hbase, hsmall, hc⟩ := Text.digitValue?_eq_some_iff.mp hv
      have hval : ((Fin.ofNat 16 v : Key) : Nat) = v := Nat.mod_eq_of_lt (by omega)
      exact .decimal hbase (by omega) (by omega)
  · rintro (⟨hbase, hsmall, hc⟩ | ⟨hk, hc⟩)
    · have hplace := hscripts _ hbase
      have hv := Text.digitValue?_eq_some_iff.mpr ⟨_, hbase, hsmall, hc⟩
      rw [hexKey?_of_decimal (fun j _ => by omega), hv, Option.map_some]
      exact congrArg some (Fin.ext (Nat.mod_eq_of_lt k.isLt))
    · rw [hexKey?_of_letter (by omega) hc, ← hk]
      exact congrArg some (Fin.ext (Nat.mod_eq_of_lt k.isLt))

theorem withoutMarker_eq (cs : List Char) :
    withoutMarker cs = if ['0', 'X'] <+: cs then cs.drop 2 else cs := by
  unfold withoutMarker
  split
  · rw [if_pos ⟨_, rfl⟩]
    rfl
  · rename_i hmarked
    rw [if_neg]
    rintro ⟨rest, rfl⟩
    exact hmarked rest rfl

theorem plainKey?_hexadecimal : plainKey? .hexadecimal cs = some k ↔
    ∃ c, (if ['0', 'X'] <+: cs then cs.drop 2 else cs) = [c] ∧ HexDigit c k := by
  rw [plainKey?, ← withoutMarker_eq]
  constructor
  · intro h
    split at h
    · rename_i c hcs
      exact ⟨c, hcs, hexKey?_eq_some_iff.mp h⟩
    · cases h
  · rintro ⟨c, hcs, hc⟩
    rw [hcs]
    exact hexKey?_eq_some_iff.mpr hc

theorem lookup_typewriterKeys :
    typewriterKeys.lookup c = some k ↔ (c, k) ∈ typewriterKeys := by
  have hself : ∀ e ∈ typewriterKeys, typewriterKeys.lookup e.1 = some e.2 := by decide
  constructor
  · intro h
    obtain ⟨before, after, hsplit, -⟩ := List.lookup_eq_some_iff.mp h
    rw [hsplit]
    exact List.mem_append_right before List.mem_cons_self
  · exact hself (c, k)

theorem plainKey?_typewriter :
    plainKey? .typewriter cs = some k ↔ ∃ c, cs = [c] ∧ (c, k) ∈ typewriterKeys := by
  constructor
  · intro h
    obtain _ | ⟨c, _ | ⟨d, rest⟩⟩ := cs
    · cases h
    · exact ⟨c, rfl, lookup_typewriterKeys.mp h⟩
    · cases h
  · rintro ⟨c, rfl, h⟩
    exact lookup_typewriterKeys.mpr h

/-- Each key has one name on the typewriter. -/
theorem existsUnique_typewriter (k : Key) : ∃! c, (c, k) ∈ typewriterKeys := by
  have hname : ∀ k : Key, ∃ e ∈ typewriterKeys, e.2 = k := by decide
  have hone : ∀ e ∈ typewriterKeys, ∀ f ∈ typewriterKeys, e.2 = f.2 → e = f := by decide
  obtain ⟨⟨c, _⟩, hc, rfl⟩ := hname k
  exact ⟨c, hc, fun d hd => congrArg Prod.fst (hone (d, _) hd (c, _) hc rfl)⟩

theorem toOption_key (layout : KeyLayout) (name : String) :
    (layout.key name).toOption = layout.plainKey? (plainName name) := by
  rw [key]
  split
  · rename_i h
    exact h.symm
  · rename_i h
    exact h.symm

theorem key_eq_ok_iff : layout.key name = .ok k ↔ layout.plainKey? (plainName name) = some k := by
  rw [← toOption_key]
  cases layout.key name with
  | ok j => simp [Except.toOption]
  | error e => simp [Except.toOption]

theorem plainName_padded {before after : String}
    (hb : ∀ c ∈ before.toList, Text.isBlank c = true)
    (ha : ∀ c ∈ after.toList, Text.isBlank c = true) (name : String) :
    plainName (before ++ name ++ after) = plainName name := by
  rw [plainName, String.toList_append, String.toList_append, Text.strip,
    Text.trimBoth_padded hb ha]
  rfl

theorem plainName_of_toUpper
    (h : other.toList.map Char.toUpper = name.toList.map Char.toUpper) :
    plainName other = plainName name := by
  have hplain : ∀ s : String, plainName s = Text.upper (Text.strip (s.toList.map Char.toUpper)) := by
    intro s
    rw [plainName, Text.strip, Text.strip, Text.trimBoth_map Text.isBlank_toUpper, Text.upper,
      Text.upper, List.flatMap_map]
    simp only [Text.upperChar_toUpper]
  rw [hplain, hplain, h]

/-- A named key is one of the sixteen, so that a keypad sets it by its index, strict or not. -/
theorem setNamed_eq (p : Keypad) (strict : Bool) (layout : KeyLayout) (name : String)
    (down : Bool) : p.setNamed layout name down =
      (layout.key name).bind fun k => p.setKey strict k down := by
  rw [Keypad.setNamed]
  cases layout.key name with
  | ok k =>
    have hkey : Keypad.key? k = some k := Keypad.key?_eq_some_iff.mpr rfl
    simp only [Except.map, Except.bind, Keypad.setKey, hkey]
  | error e => rfl

theorem setNamedKey_answer (m : Machine) (layout : KeyLayout) (name : String) (down : Bool) :
    (m.perform (.setNamedKey layout name down)).1.answer =
      (layout.key name).map fun _ => .nothing := by
  cases h : layout.key name with
  | ok k =>
    rw [Machine.perform_setNamedKey_of_key h]
    rfl
  | error e =>
    rw [Machine.perform_setNamedKey_of_error h, key_error h]
    rfl

theorem bare_setNamedKey (m : Machine) (layout : KeyLayout) (name : String) (down : Bool) :
    (Bare.perform (.setNamedKey layout name down) m.bare).1 =
      Bare.outcome ((layout.key name).map fun _ => .nothing) := by
  rw [Bare.perform_setNamedKey, setNamedKey_answer]

theorem key_eq_error_iff {e : HostError} : layout.key name = .error e ↔
    e = .keyName name ∧ ∀ k, layout.key name ≠ .ok k := by
  constructor
  · intro h
    refine ⟨key_error h, fun k hk => ?_⟩
    cases hk.symm.trans h
  · rintro ⟨rfl, h⟩
    cases hkey : layout.key name with
    | ok k => exact absurd hkey (h k)
    | error e => rw [key_error hkey]

/-- A name is first stripped of the blanks around it and put into upper case. On the typewriter it
is then one of sixteen characters, one for each key. Otherwise it is one hexadecimal digit, after
`0X` taken off once, and the key is the digit's value. Any other name is refused as it was given.
A named key is one of the sixteen, so no strictness ever refuses its index. Blanks around a name are
of no account, nor is the case of its letters. -/
theorem key_names_follow_grammar (layout : KeyLayout) (name : String) :
    let s := Text.strip name.toList
    let u := Text.upper s
    let w := if ['0', 'X'] <+: u then u.drop 2 else u
    Text.Stripped name.toList s ∧
    ((∀ k, typewriter.key name = .ok k ↔ ∃ c, u = [c] ∧ (c, k) ∈ typewriterKeys) ∧
      typewriterKeys.map Prod.fst = "1234QWERASDFZXCV".toList ∧
      ∀ k, ∃! c, (c, k) ∈ typewriterKeys) ∧
    (∀ k, hexadecimal.key name = .ok k ↔ ∃ c, w = [c] ∧ HexDigit c k) ∧
    (∀ e, layout.key name = .error e ↔ e = .keyName name ∧ ∀ k, layout.key name ≠ .ok k) ∧
    ((∀ (p : Keypad) strict down, p.setNamed layout name down =
        (layout.key name).bind fun k => p.setKey strict k down) ∧
      ∀ (m : Machine) down index,
        (m.perform (.setNamedKey layout name down)).1.answer ≠ .error (.keyIndex index) ∧
        (Bare.perform (.setNamedKey layout name down) m.bare).1 ≠
          .error (.refused (.keyIndex index))) ∧
    (∀ before after : String, (∀ c ∈ before.toList, Text.isBlank c = true) →
      (∀ c ∈ after.toList, Text.isBlank c = true) →
        (layout.key (before ++ name ++ after)).toOption = (layout.key name).toOption) ∧
    ∀ other : String, other.toList.map Char.toUpper = name.toList.map Char.toUpper →
      (layout.key other).toOption = (layout.key name).toOption := by
  intro s u w
  refine ⟨Text.stripped_strip _, ⟨fun k => key_eq_ok_iff.trans plainKey?_typewriter, rfl,
    existsUnique_typewriter⟩, fun k => key_eq_ok_iff.trans plainKey?_hexadecimal,
    fun e => key_eq_error_iff, ⟨fun p strict down => setNamed_eq p strict layout name down,
      fun m down index => ?_⟩, fun before after hb ha => ?_, fun other h => ?_⟩
  · rw [setNamedKey_answer, bare_setNamedKey]
    cases h : layout.key name with
    | ok k => exact ⟨nofun, nofun⟩
    | error e =>
      rw [key_error h]
      exact ⟨nofun, nofun⟩
  · rw [toOption_key, toOption_key, plainName_padded hb ha]
  · rw [toOption_key, toOption_key, plainName_of_toUpper h]

set_option maxRecDepth 100000 in
/-- The digit three of another script counts, with a marker before it and blanks around both. The
long s of old prints is an S in upper case. A marker alone names no key, nor do two of them, and a
number beyond the last key is not refused as an index. -/
theorem names_beyond_ascii :
    hexadecimal.key "\t0x\u0663\u2003" = .ok 3 ∧
      (typewriter.key "\u017F" = .ok 8 ∧
        (typewriter.key ("\u3000" ++ "\u017F" ++ "\u0085")).toOption = some 8) ∧
      (hexadecimal.key " 0x" = .error (.keyName " 0x") ∧
        hexadecimal.key "0x0xA" = .error (.keyName "0x0xA")) ∧
      (((Machine.initial { strict := true } (.listed [0] 0)).perform
        (.setNamedKey .hexadecimal "0x10" true)).1.answer ≠ .error (.keyIndex 16)) ∧
      (hexadecimal.key "0xe").toOption = some 14 := by
  obtain ⟨-, -, hdigit, -⟩ := key_names_follow_grammar .hexadecimal "\t0x\u0663\u2003"
  obtain ⟨-, ⟨hlong, -⟩, -, -, -, hpadded, -⟩ := key_names_follow_grammar .typewriter "\u017F"
  obtain ⟨-, -, -, hone, -⟩ := key_names_follow_grammar .hexadecimal " 0x"
  obtain ⟨-, -, -, htwo, -⟩ := key_names_follow_grammar .hexadecimal "0x0xA"
  obtain ⟨-, -, -, -, ⟨-, hlarge⟩, -⟩ := key_names_follow_grammar .hexadecimal "0x10"
  obtain ⟨-, -, hletter, -, -, -, hcase⟩ := key_names_follow_grammar .hexadecimal "0XE"
  have hs : typewriter.key "\u017F" = .ok 8 :=
    (hlong 8).mpr ⟨'S', by decide +kernel, by decide⟩
  have he : hexadecimal.key "0XE" = .ok 14 :=
    (hletter 14).mpr ⟨'E', by decide +kernel, @HexDigit.letter _ _ 4 rfl rfl⟩
  refine ⟨(hdigit 3).mpr ⟨'\u0663', by decide +kernel,
      @HexDigit.decimal _ _ 0x660 (by decide) (by decide) rfl⟩, ⟨hs, ?_⟩,
    ⟨(hone _).mpr ⟨rfl, by decide +kernel⟩, (htwo _).mpr ⟨rfl, by decide +kernel⟩⟩,
    (hlarge _ true 16).1, ?_⟩
  · rw [hpadded "\u3000" "\u0085" (List.all_eq_true.mp (by decide +kernel))
      (List.all_eq_true.mp (by decide +kernel)), hs]
    rfl
  · rw [hcase "0xe" (by decide +kernel), he]
    rfl

end KeyLayout

end Chip8
