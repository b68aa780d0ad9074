import Chip8.Proofs.Halting
import Chip8.Proofs.Keys
import Chip8.Proofs.Saving
import Chip8.Proofs.Sheets
import Chip8.Proofs.Wording

/-! How the command ends. The world that it leaves shows what it has read and written. -/
namespace Chip8.Command

variable {W S : Type} {host : Host (StateM W)} {lib : Imaging S} {o : Options} {w : W}
  {names : List String} {name : String} {e : HostError} {f : Failure} {keys : List Key}
  {rom : List UInt8} {entropy : Int} {path : Path}

theorem mapM_key_error (hnames : ∀ n ∈ names, ∃ k, KeyLayout.hexadecimal.key n = .ok k)
    (h : KeyLayout.hexadecimal.key name = .error e) (more : List String) :
    (names ++ name :: more).mapM KeyLayout.hexadecimal.key = .error e := by
  induction names with
  | nil =>
    rw [List.nil_append, List.mapM_cons, h]
    rfl
  | cons n names ih =>
    obtain ⟨k, hk⟩ := hnames n (by simp)
    rw [List.cons_append, List.mapM_cons, hk, ih fun n hn => hnames n (by simp [hn])]
    rfl

/-- Names of keys stand for keys, and it is these that pressing by name puts down. -/
theorem exists_keys (hnames : ∀ n ∈ names, ∃ k, KeyLayout.hexadecimal.key n = .ok k) :
    ∃ keys, names.mapM KeyLayout.hexadecimal.key = .ok keys ∧ ∀ m : Machine,
      m.after (names.map (.setNamedKey .hexadecimal · true)) =
        m.setKeypad (keys.foldl (fun p k => p.put k true) m.keypad) := by
  induction names with
  | nil => exact ⟨[], rfl, fun _ => rfl⟩
  | cons n names ih =>
    obtain ⟨k, hk⟩ := hnames n (by simp)
    obtain ⟨keys, hkeys, hafter⟩ := ih fun n hn => hnames n (by simp [hn])
    refine ⟨k :: keys, ?_, fun m => ?_⟩
    · rw [List.mapM_cons, hk, hkeys]
      rfl
    · rw [List.map_cons, Machine.after_cons, Machine.perform_setNamedKey_of_key hk]
      exact hafter (m.withKey k true)

theorem keys_of_mapM (h : names.mapM KeyLayout.hexadecimal.key = .ok keys) :
    ∀ n ∈ names, ∃ k, KeyLayout.hexadecimal.key n = .ok k := by
  induction names generalizing keys with
  | nil => exact fun _ => nofun
  | cons name names ih =>
    rw [List.mapM_cons] at h
    cases hk : KeyLayout.hexadecimal.key name with
    | error e =>
      rw [hk] at h
      cases h
    | ok k =>
      cases hkeys : names.mapM KeyLayout.hexadecimal.key with
      | error e =>
        rw [hk, hkeys] at h
        cases h
      | ok keys => exact List.forall_mem_cons.mpr ⟨⟨k, hk⟩, ih hkeys⟩

/-- Fresh, with the program loaded, and the keys pressed by their names. -/
def started (o : Options) (entropy : Int) (rom : List UInt8) : Machine :=
  (Machine.ofConfig ⟨o.seed, o.strict⟩ entropy).after
    (.load rom :: o.keys.map (.setNamedKey .hexadecimal · true))

theorem load_fits (h : rom.length ≤ 3584) (m : Machine) :
    m.load rom = .ok (m.setMemory (m.memory.writeBytes programStart rom)) := by
  simp only [Machine.load, Memory.load, if_pos (show rom.length ≤ maxProgramSize from h)]
  rfl

theorem prepared_eq (hnames : ∀ n ∈ o.keys, ∃ k, KeyLayout.hexadecimal.key n = .ok k)
    (hkeys : o.keys.mapM KeyLayout.hexadecimal.key = .ok keys) (h : rom.length ≤ 3584)
    (entropy : Int) : prepared o entropy keys rom = .ok (started o entropy rom) := by
  obtain ⟨others, hothers, hafter⟩ := exists_keys hnames
  cases hothers.symm.trans hkeys
  rw [prepared, started, Machine.after_cons, hafter]
  simp only [Machine.perform, load_fits h]
  rfl

theorem mem_keyEvents_pressed (rom : List UInt8) {k : Key} {b : Bool} :
    b ∈ keyEvents k (.load rom :: names.map (.setNamedKey .hexadecimal · true)) ↔
      b = true ∧ ∃ n ∈ names, KeyLayout.hexadecimal.key n = .ok k := by
  simp only [keyEvents, List.filterMap_cons, Operation.keyEvent?, List.mem_filterMap, List.mem_map,
    exists_exists_and_eq_and, Option.ite_none_right_eq_some, Option.some.injEq]
  constructor
  · rintro ⟨n, hn, hk, rfl⟩
    exact ⟨rfl, n, hn, hk⟩
  · rintro ⟨rfl, n, hn, hk⟩
    exact ⟨n, hn, hk, rfl⟩

/-- Exactly the keys named are held. -/
theorem isHeld_started (o : Options) (entropy : Int) (rom : List UInt8) (k : Key) :
    (started o entropy rom).keypad.isHeld k = true ↔
      ∃ n ∈ o.keys, KeyLayout.hexadecimal.key n = .ok k := by
  have hnone : (Machine.ofConfig ⟨o.seed, o.strict⟩ entropy).keypad.isHeld k = false := by
    simp [Machine.ofConfig, Machine.initial, Keypad.released, Keypad.isHeld]
  rw [started, Machine.isHeld_after, hnone]
  cases hlast : (keyEvents k _).getLast? with
  | none =>
    have hempty := List.getLast?_eq_none_iff.mp hlast
    refine iff_of_false Bool.false_ne_true fun hn => ?_
    have hpressed := (mem_keyEvents_pressed rom).mpr ⟨rfl, hn⟩
    rw [hempty] at hpressed
    exact List.not_mem_nil hpressed
  | some b =>
    obtain ⟨rfl, hn⟩ := (mem_keyEvents_pressed rom).mp (List.mem_of_getLast? hlast)
    exact iff_of_true rfl hn

theorem romOf_usable (hne : rom ≠ []) (hsize : rom.length ≤ 3584) (path : Path) :
    romOf path (.ok rom) = .ok rom := by
  have hbig : ¬ maxProgramSize < rom.length := Nat.not_lt.mpr hsize
  simp only [romOf, checkRom, if_neg hne, if_neg hbig]
  rfl

theorem romOf_useless (h : rom = [] ∨ 3584 < rom.length) (path : Path) :
    ∃ e, romOf path (.ok rom) = .error (.misuse e) ∧ e.expected = true := by
  by_cases hempty : rom = []
  · simp only [romOf, checkRom, if_pos hempty]
    exact ⟨_, rfl, rfl⟩
  · have hbig : maxProgramSize < rom.length := h.resolve_left hempty
    simp only [romOf, checkRom, if_neg hempty, if_pos hbig]
    exact ⟨_, rfl, rfl⟩

theorem length_of_romOf {read : Except Failure (List UInt8)} (h : romOf path read = .ok rom) :
    rom.length ≤ 3584 := by
  cases read with
  | error f => cases h
  | ok bytes =>
    by_cases huseless : bytes = [] ∨ 3584 < bytes.length
    · obtain ⟨e, he, -⟩ := romOf_useless huseless path
      cases h.symm.trans he
    · obtain ⟨hne, hsize⟩ := not_or.mp huseless
      cases h.symm.trans (romOf_usable hne (Nat.not_lt.mp hsize) path)
      exact Nat.not_lt.mp hsize

theorem stderr_of_bad_name (name : String) (verbose : Bool) :
    (Failure.outcome (.misuse (.keyName name)) verbose "" "").stderr =
      say ("Error: unknown key name: " ++ Text.quoted name) := by
  have hlabel : "Error" ++ ": " ++ "unknown key name: " = "Error: unknown key name: " := by decide
  have hmessage : (Failure.misuse (.keyName name)).message =
      "unknown key name: " ++ Text.quoted name := rfl
  have hstderr : (Failure.outcome (.misuse (.keyName name)) verbose "" "").stderr =
      "" ++ say ("Error" ++ ": " ++ (Failure.misuse (.keyName name)).message) := rfl
  rw [hstderr, hmessage, ← String.append_assoc, hlabel, String.empty_append]

/-- Nothing is read or written for the sake of a key that does not exist. -/
theorem run_of_bad_key (hkeys : o.keys.mapM KeyLayout.hexadecimal.key = .error e)
    (host : Host (StateM W)) (lib : Imaging S) (entropy : Int) (w : W) :
    run host lib entropy o w = (Failure.outcome (.misuse e) o.verbose "" "", w) := by
  simp only [run, hkeys]
  rfl

theorem run_of_bad_rom (hkeys : o.keys.mapM KeyLayout.hexadecimal.key = .ok keys)
    (hrom : romOf (Path.ofText o.rom) (host.read (Path.ofText o.rom) w).1 = .error f)
    (lib : Imaging S) (entropy : Int) : run host lib entropy o w =
      (f.outcome o.verbose "" "", (host.read (Path.ofText o.rom) w).2) := by
  simp only [run, hkeys, readRom, stateM_bind, stateM_pure, hrom]

theorem run_of_rom (hnames : ∀ n ∈ o.keys, ∃ k, KeyLayout.hexadecimal.key n = .ok k)
    (hrom : romOf (Path.ofText o.rom) (host.read (Path.ofText o.rom) w).1 = .ok rom)
    (lib : Imaging S) (entropy : Int) : run host lib entropy o w =
      (play o rom (started o entropy rom)).close host lib o
        (host.read (Path.ofText o.rom) w).2 := by
  obtain ⟨keys, hkeys, -⟩ := exists_keys hnames
  have hm := prepared_eq hnames hkeys (length_of_romOf hrom) entropy
  simp only [run, hkeys, readRom, stateM_bind, stateM_pure, hrom, hm]

theorem ended_of_unread (hhost : host.External)
    (hnames : ∀ n ∈ o.keys, ∃ k, KeyLayout.hexadecimal.key n = .ok k)
    (hread : (host.read (Path.ofText o.rom) w).1 = .error f) (lib : Imaging S) (entropy : Int) :
    (run host lib entropy o w).1.exitCode.number = (if f.fromSystem then 2 else 3) ∧
      (run host lib entropy o w).1.stdout = "" ∧
      (run host lib entropy o w).2 = (host.read (Path.ofText o.rom) w).2 := by
  obtain ⟨keys, hkeys, -⟩ := exists_keys hnames
  have hrom : romOf (Path.ofText o.rom) (host.read (Path.ofText o.rom) w).1 =
      .error (unreadable (Path.ofText o.rom).text f) := by rw [hread, romOf]
  rw [run_of_bad_rom hkeys hrom]
  exact ⟨Failure.number_of_unreadable (hhost.read _ _ _ hread) _, rfl, rfl⟩

theorem ended_of_useless (hnames : ∀ n ∈ o.keys, ∃ k, KeyLayout.hexadecimal.key n = .ok k)
    (hread : (host.read (Path.ofText o.rom) w).1 = .ok rom)
    (huseless : rom = [] ∨ 3584 < rom.length) (lib : Imaging S) (entropy : Int) :
    (run host lib entropy o w).1.exitCode.number = 2 ∧ (run host lib entropy o w).1.stdout = "" ∧
      (run host lib entropy o w).2 = (host.read (Path.ofText o.rom) w).2 := by
  obtain ⟨keys, hkeys, -⟩ := exists_keys hnames
  obtain ⟨e, he, hexpected⟩ := romOf_useless huseless (Path.ofText o.rom)
  rw [← hread] at he
  rw [run_of_bad_rom hkeys he]
  refine ⟨?_, rfl, rfl⟩
  simp only [Failure.outcome, Failure.exitCode, hexpected]
  rfl

theorem not_waiting_of_paced (o : Options) (entropy : Int) (rom : List UInt8)
    (maxSteps perTick : Int)
    (h : ((started o entropy rom).runPaced maxSteps perTick).2.fault ≠ none) :
    ((started o entropy rom).runPaced maxSteps perTick).2.keypad.waiting = none := by
  have hlast : ((started o entropy rom).runPaced maxSteps perTick).2 =
      (Machine.ofConfig ⟨o.seed, o.strict⟩ entropy).after
        ((.load rom :: o.keys.map (.setNamedKey .hexadecimal · true)) ++
          [.runPaced maxSteps perTick]) := by
    rw [Machine.after_append]
    rfl
  rw [hlast] at h ⊢
  refine Machine.not_waiting_of_halted ⟨o.seed, o.strict⟩ _ (fun op hop r => ?_) h
  rintro rfl
  simp at hop

/-- Either the command breaks off, or it goes all the way. -/
theorem run_cases (host : Host (StateM W)) (lib : Imaging S) (entropy : Int) (o : Options) (w : W) :
    (∃ f : Failure, ∃ w', run host lib entropy o w = (f.outcome o.verbose "" "", w') ∧
      (w' = w ∨ w' = (host.read (Path.ofText o.rom) w).2)) ∨
    ∃ rom, run host lib entropy o w =
      (play o rom (started o entropy rom)).close host lib o
        (host.read (Path.ofText o.rom) w).2 := by
  cases hkeys : o.keys.mapM KeyLayout.hexadecimal.key with
  | error e => exact .inl ⟨_, _, run_of_bad_key hkeys host lib entropy w, .inl rfl⟩
  | ok keys =>
    cases hrom : romOf (Path.ofText o.rom) (host.read (Path.ofText o.rom) w).1 with
    | error f => exact .inl ⟨_, _, run_of_bad_rom hkeys hrom lib entropy, .inr rfl⟩
    | ok rom =>
      exact .inr ⟨rom, run_of_rom (keys_of_mapM hkeys) hrom lib entropy⟩

/-- A program that came to a halt waits for no key, so nothing is said of one. -/
theorem w_notMem_stdout (h : (run host lib entropy o w).1.exitCode.number = 1) :
    'w' ∉ (run host lib entropy o w).1.stdout.toList := by
  obtain ⟨f, w', hended, -⟩ | ⟨rom, hended⟩ := run_cases host lib entropy o w
  · rw [hended] at h
    exact absurd h f.number_ne_one
  · rw [hended] at h ⊢
    rw [close_stdout]
    exact w_notMem_play rom (not_waiting_of_paced o entropy rom _ _ (halted_of_close h))

theorem run_world (host : Host (StateM W)) (lib : Imaging S) (entropy : Int) (o : Options) (w : W) :
    (run host lib entropy o w).2 = w ∨
      (run host lib entropy o w).2 = (host.read (Path.ofText o.rom) w).2 ∨
      ∃ name bytes, o.screenshot = some name ∧ (run host lib entropy o w).2 =
        (host.write (Path.ofText name) bytes (host.read (Path.ofText o.rom) w).2).2 := by
  obtain ⟨f, w', hended, hw⟩ | ⟨rom, hended⟩ := run_cases host lib entropy o w
  · rw [hended]
    exact hw.imp_right .inl
  · rw [hended, close_world]
    exact .inr (save_world host lib o _ _)

/-- A program of one word that is no instruction, run with two keys held. -/
def faulty : Options :=
  { rom := "p", steps := 10, perTick := 4, seed := some 1, strict := false, keys := ["5", "a"]
    screenshot := none, scale := 1, text := false, verbose := false }

end Chip8.Command
