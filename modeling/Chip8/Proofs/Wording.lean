import Chip8.Command.Run

/-! What the command prints. There is a `w` in it only if it tells of a wait for a key. -/
namespace Chip8

namespace Text

theorem plainAfter_sublist (n : Nat) (cs : List Char) : (plainAfter n cs).Sublist cs := by
  fun_induction plainAfter n cs with
  | case1 => exact .slnil
  | case2 n c cs ih => exact ih.cons c
  | case3 c cs _ ih => exact ih.cons_cons c
  | case4 c cs n _ ih => exact ih.cons c

theorem notMem_plain {c : Char} {s : String} (h : c ∉ s.toList) : c ∉ (plain s).toList := by
  rw [plain, String.toList_ofList]
  exact fun hc => h ((plainAfter_sublist 0 s.toList).subset hc)

theorem toUpper_ne_w (c : Char) : c.toUpper ≠ 'w' := by
  unfold Char.toUpper
  split
  · rename_i h
    intro hw
    have hv := congrArg (fun c => c.val.toNat) hw
    simp [UInt32.le_iff_toNat_le] at hv h
    omega
  · rename_i h
    rintro rfl
    exact h (by decide)

theorem w_notMem_hex (width n : Nat) : 'w' ∉ (hex width n).toList := by
  have hdigits : 'w' ∉ hexDigits width n := by
    rw [hexDigits, List.mem_append]
    rintro (h | h)
    · exact absurd (List.eq_of_mem_replicate h) (by decide)
    · obtain ⟨c, -, hc⟩ := List.mem_map.mp h
      exact toUpper_ne_w c hc
  rw [hex, if_neg (by omega), String.toList_ofList]
  exact hdigits

theorem notMem_intercalate {c : Char} {separator : List Char} {ls : List (List Char)}
    (hs : c ∉ separator) (h : ∀ l ∈ ls, c ∉ l) : c ∉ separator.intercalate ls := by
  induction ls with
  | nil => exact List.not_mem_nil
  | cons l ls ih =>
    obtain ⟨hl, hls⟩ := List.forall_mem_cons.mp h
    by_cases hnil : ls = []
    · rw [hnil, List.intercalate_singleton]
      exact hl
    · rw [List.intercalate_cons_of_ne_nil hnil, List.mem_append, List.mem_append]
      rintro ((h | h) | h)
      · exact hl h
      · exact hs h
      · exact ih hls h

theorem w_notMem_repr (n : Nat) : 'w' ∉ (toString n).toList := by
  intro h
  have hdigit : ('w' : Char).isDigit = true :=
    Nat.isDigit_of_mem_toDigits (by decide) (by decide) (Nat.toList_repr ▸ h)
  exact absurd hdigit (by decide)

end Text

theorem Display.w_notMem_screenText (d : Display) : 'w' ∉ d.screenText.toList := by
  rw [screenText, text, String.toList_intercalate]
  apply Text.notMem_intercalate (by decide)
  intro l hl
  simp only [List.map_map, List.mem_map, Function.comp_apply] at hl
  obtain ⟨r, -, rfl⟩ := hl
  rw [String.toList_join, List.mem_flatMap]
  rintro ⟨s, hs, hw⟩
  obtain ⟨b, -, rfl⟩ := List.mem_map.mp hs
  cases b with
  | true => exact absurd hw (by decide)
  | false => exact absurd hw (by decide)

namespace Command

theorem w_notMem_say {s : String} (h : 'w' ∉ s.toList) : 'w' ∉ (say s).toList := by
  rw [say, line, String.toList_append, List.mem_append, not_or]
  exact ⟨Text.notMem_plain h, by decide⟩

theorem w_notMem_statusText {m : Machine} (h : m.keypad.waiting = none) (p : Pace) :
    'w' ∉ (statusText p m).toList := by
  have hwaiting : waitingText m = "" := by rw [waitingText, h]
  have hsound : 'w' ∉ (if m.timers.soundOn then "on" else "off").toList := by
    split
    · decide
    · decide
  have hpc : 'w' ∉ m.pcText.toList := by
    rw [Machine.pcText, String.toList_append, List.mem_append, not_or]
    exact ⟨by decide, Text.w_notMem_hex 3 _⟩
  simp only [statusText, hwaiting, String.toList_append, List.mem_append, not_or]
  exact ⟨⟨⟨⟨⟨⟨⟨⟨by decide, Text.w_notMem_repr _⟩, by decide⟩, Text.w_notMem_repr _⟩, by decide⟩,
    hpc⟩, by decide⟩, hsound⟩, by decide⟩

theorem play_stdout (o : Options) (rom : List UInt8) (machine : Machine) :
    (play o rom machine).stdout =
      screenText o (machine.runPaced o.steps o.perTick).2 ++ say (statusText
        (machine.runPaced o.steps o.perTick).1 (machine.runPaced o.steps o.perTick).2) := rfl

theorem w_notMem_play {o : Options} (rom : List UInt8) {machine : Machine}
    (h : (machine.runPaced o.steps o.perTick).2.keypad.waiting = none) :
    'w' ∉ (play o rom machine).stdout.toList := by
  rw [play_stdout, String.toList_append, List.mem_append, not_or]
  refine ⟨?_, w_notMem_say (w_notMem_statusText h _)⟩
  unfold screenText
  split
  · exact w_notMem_say (Display.w_notMem_screenText _)
  · exact List.not_mem_nil

end Command

end Chip8
