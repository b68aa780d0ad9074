import Chip8.Proofs.Bare.Operations
import Chip8.Proofs.Interleaving

/-! The keypad as a set of keys. A key is in it if the last that happened to the key was a press. -/
namespace Chip8

/-- The press (`true`) or release of the key `k` that an operation is. -/
def Operation.keyEvent? (k : Key) : Operation → Option Bool
  | .setKey index down => if index = k then some down else none
  | .setNamedKey layout name down => if layout.key name = .ok k then some down else none
  | .releaseAll | .reset => some false
  | _ => none

def keyEvents (k : Key) (ops : List Operation) : List Bool := ops.filterMap (Operation.keyEvent? k)

theorem KeyLayout.key_error {layout : KeyLayout} {name : String} {e : HostError}
    (h : layout.key name = .error e) : e = .keyName name := by
  unfold key at h
  split at h
  · cases h
  · cases h
    rfl

namespace Keypad

variable {p : Keypad} {k : Key} {index : Int}

/-- Whichever way it is asked, the keypad tells that the keys of `s` are held and no others. -/
structure Shows (p : Keypad) (s : Key → Prop) : Prop where
  isHeld : ∀ k, p.isHeld k = true ↔ s k
  mem : ∀ k, k ∈ p.heldKeys ↔ s k
  ascending : p.heldKeys.Pairwise (· < ·)
  first : p.firstHeld? = p.heldKeys.head?
  isPressed : ∀ index : Int, p.isPressed index = true ↔ ∃ k : Key, index = k ∧ s k

theorem key?_eq_some_iff : key? index = some k ↔ index = k := by
  unfold key?
  constructor
  · intro h
    split at h
    · cases h
      simp only []
      omega
    · cases h
  · rintro rfl
    rw [dif_pos (by omega)]
    rfl

theorem key?_eq_none_iff : key? index = none ↔ ¬ (0 ≤ index ∧ index < 16) := by
  unfold key?
  split
  · simp [*]
  · simp [*]

theorem isPressed_iff : p.isPressed index = true ↔ ∃ k : Key, index = k ∧ p.isHeld k = true := by
  simp only [isPressed, Option.any_eq_true, key?_eq_some_iff]

theorem ascending_heldKeys (p : Keypad) : p.heldKeys.Pairwise (· < ·) :=
  (List.pairwise_lt_finRange 16).filter _

theorem shows_of_isHeld {s : Key → Prop} (h : ∀ k, p.isHeld k = true ↔ s k) : p.Shows s where
  isHeld := h
  mem k := mem_heldKeys.trans (h k)
  ascending := p.ascending_heldKeys
  first := p.firstHeld?_eq_head?
  isPressed index := by simp only [isPressed_iff, h]

theorem toList_held (p : Keypad) : p.held.toList = (List.finRange 16).map p.isHeld := by
  apply List.ext_getElem
  · simp
  · intro j hj _
    simp [isHeld]

end Keypad

namespace Machine

variable {m : Machine} {op : Operation} {ops others : List Operation}

theorem held_of_batch (h : op = .step ∨ op = .tick ∨ op.isBatch = true) :
    (m.perform op).2.keypad.held = m.keypad.held := by
  rw [← after_unrolled]
  exact held_after (step_or_tick_of_mem_unrolled h)

theorem isHeld_withKey (m : Machine) (j k : Key) (down : Bool) :
    (m.withKey j down).keypad.isHeld k = if j = k then down else m.keypad.isHeld k := by
  have h := m.keypad.isHeld_put j k down
  rw [if_congr eq_comm rfl rfl] at h
  exact h

theorem perform_setKey_inside (m : Machine) (k : Key) (down : Bool) :
    m.perform (.setKey k down) = (m.withKey k down).silent :=
  perform_setKey (Keypad.key?_eq_some_iff.mpr rfl) m down

theorem perform_setKey_outside {index : Int} (h : ¬ (0 ≤ index ∧ index < 16)) (m : Machine)
    (down : Bool) : m.perform (.setKey index down) =
      if m.config.strict then (⟨.error (.keyIndex index), [.keyRejected index]⟩, m)
      else m.silent := by
  simp only [perform, setKey, Keypad.setKey, Keypad.key?_eq_none_iff.mpr h]
  split
  · rfl
  · rfl

theorem perform_setNamedKey_of_key {layout : KeyLayout} {name : String} {k : Key}
    (h : layout.key name = .ok k) (m : Machine) (down : Bool) :
    m.perform (.setNamedKey layout name down) = (m.withKey k down).silent := by
  simp only [perform, setNamedKey, Keypad.setNamed, h]
  rfl

theorem perform_setNamedKey_of_error {layout : KeyLayout} {name : String} {e : HostError}
    (h : layout.key name = .error e) (m : Machine) (down : Bool) :
    m.perform (.setNamedKey layout name down) = (⟨.error (.keyName name), []⟩, m) := by
  simp only [perform, setNamedKey, Keypad.setNamed, h, KeyLayout.key_error h]
  rfl

/-- An operation puts up or down the keys that it concerns, and leaves the others. -/
theorem isHeld_perform (m : Machine) (op : Operation) (k : Key) :
    (m.perform op).2.keypad.isHeld k = (op.keyEvent? k).getD (m.keypad.isHeld k) := by
  have hbatch (h : op = .step ∨ op = .tick ∨ op.isBatch = true) :
      (m.perform op).2.keypad.isHeld k = m.keypad.isHeld k :=
    congrArg (fun held : Vector Bool 16 => held[k]) (held_of_batch h)
  cases op with
  | step => exact hbatch (.inl rfl)
  | tick => exact hbatch (.inr (.inl rfl))
  | run | runFrame | runPaced => exact hbatch (.inr (.inr rfl))
  | setKey index down =>
    by_cases h : 0 ≤ index ∧ index < 16
    · obtain ⟨j, rfl⟩ : ∃ j : Key, index = j := Bare.exists_fin h
      have hsame : ((j : Int) = k) ↔ j = k := Int.ofNat_inj.trans Fin.val_inj
      rw [perform_setKey_inside, Operation.keyEvent?, if_congr hsame rfl rfl]
      exact (m.isHeld_withKey j k down).trans (by split <;> rfl)
    · have hother : index ≠ k := by
        rintro rfl
        omega
      rw [perform_setKey_outside h, Operation.keyEvent?, if_neg hother]
      split <;> rfl
  | setNamedKey layout name down =>
    cases h : layout.key name with
    | ok j =>
      rw [perform_setNamedKey_of_key h, Operation.keyEvent?, h]
      simp only [Except.ok.injEq]
      exact (m.isHeld_withKey j k down).trans (by split <;> rfl)
    | error e =>
      rw [perform_setNamedKey_of_error h, Operation.keyEvent?, h]
      rfl
  | releaseAll => exact m.keypad.isHeld_releaseAll k
  | reset => exact m.keypad.isHeld_releaseAll k
  | load program =>
    obtain ⟨_, h⟩ := m.load_eq program
    rw [h]
    rfl
  | _ => rfl

/-- After a run a key is as its last event has left it, or as it was. -/
theorem isHeld_after (m : Machine) (ops : List Operation) (k : Key) :
    (m.after ops).keypad.isHeld k = (keyEvents k ops).getLast?.getD (m.keypad.isHeld k) := by
  rw [after_eq_foldl]
  exact foldl_last (fun n => n.keypad.isHeld k) (fun n op => n.isHeld_perform op k) ops m

theorem held_eq_of_keyEvents (h : ∀ k, keyEvents k others = keyEvents k ops) (m : Machine) :
    (m.after others).keypad.held = (m.after ops).keypad.held := by
  apply Vector.ext
  intro j hj
  have hkey : (m.after others).keypad.isHeld ⟨j, hj⟩ = (m.after ops).keypad.isHeld ⟨j, hj⟩ := by
    rw [isHeld_after, isHeld_after, h]
  exact hkey

theorem held_bare (m : Machine) : m.bare.held = (List.finRange 16).map m.keypad.isHeld :=
  m.keypad.toList_held

/-- After any run exactly those keys are held whose last event was a press, in the list of sixteen
flags too, where an index below zero would count from the end. An index without a key is refused by
a strict machine and passed over by a lenient one, a name without a key is always refused, and then
nothing changes. What the machine does by itself changes no key. Which keys are held depends only on
the order of the events of each key. -/
theorem keys_follow_last_event (config : Config) (source : Random.Source) (ops : List Operation) :
    let m := (initial config source).after ops
    let pressed (k : Key) := (keyEvents k ops).getLast? = some true
    (m.keypad.Shows pressed ∧
      ((Bare.start config source).after ops).held =
        (List.finRange 16).map fun k => decide (pressed k)) ∧
    (∀ (n : Machine) index down, ¬ (0 ≤ index ∧ index < 16) →
      n.perform (.setKey index down) =
        if n.config.strict then (⟨.error (.keyIndex index), [.keyRejected index]⟩, n)
        else n.silent) ∧
    (∀ (n : Machine) layout name down,
      (∀ k, layout.key name = .ok k →
        n.perform (.setNamedKey layout name down) = (n.withKey k down).silent) ∧
      (∀ e, layout.key name = .error e →
        n.perform (.setNamedKey layout name down) = (⟨.error (.keyName name), []⟩, n)) ∧
      ∀ index, (n.perform (.setNamedKey layout name down)).1.answer ≠ .error (.keyIndex index)) ∧
    (∀ (n : Machine) op, op = .step ∨ op = .tick ∨ op.isBatch = true →
      (n.perform op).2.keypad.held = n.keypad.held) ∧
    ∀ (n : Machine) others, (∀ k, keyEvents k others = keyEvents k ops) →
      (n.after others).keypad.held = (n.after ops).keypad.held := by
  intro m pressed
  have hheld : ∀ k, m.keypad.isHeld k = (keyEvents k ops).getLast?.getD false := by
    intro k
    have hnone : (initial config source).keypad.isHeld k = false := by
      simp [initial, Keypad.released, Keypad.isHeld]
    rw [isHeld_after, hnone]
  have hpressed : ∀ k, m.keypad.isHeld k = true ↔ pressed k := by
    intro k
    rw [hheld k]
    change _ ↔ (keyEvents k ops).getLast? = some true
    cases (keyEvents k ops).getLast? <;> simp
  refine ⟨⟨Keypad.shows_of_isHeld hpressed, ?_⟩,
    fun n index down h => perform_setKey_outside h n down,
    fun n layout name down => ⟨fun k h => perform_setNamedKey_of_key h n down,
      fun e h => perform_setNamedKey_of_error h n down, fun index => ?_⟩,
    fun n op h => held_of_batch h, fun n others h => held_eq_of_keyEvents h n⟩
  · rw [Bare.start_eq, Bare.after_bare, held_bare]
    apply List.map_congr_left
    intro k _
    rw [Bool.eq_iff_iff, decide_eq_true_eq]
    exact hpressed k
  · cases h : layout.key name with
    | ok k =>
      rw [perform_setNamedKey_of_key h]
      intro hindex
      cases hindex
    | error e =>
      rw [perform_setNamedKey_of_error h]
      intro hindex
      cases hindex

/-- Of the keys 3, 4 and F the first is let go again. The index -13 lies thirteen places before the
end of the flags, where key 3 has its own. -/
def pressAndRelease : List Operation :=
  [.setKey 3 true, .setNamedKey .typewriter "q" true, .setKey 3 false, .setKey (-13) true,
    .setNamedKey .hexadecimal " 0xf " true]

set_option maxRecDepth 100000 in
/-- In another order and by other names the same keys are left. -/
theorem released_key_stays_released :
    let start := initial { strict := true } (.listed [0] 0)
    let m := start.after pressAndRelease
    let others : List Operation :=
      [.setNamedKey .hexadecimal "F" true, .setKey 3 true, .setKey 4 true, .setKey 3 false, .step]
    (m.keypad.heldKeys = [4, 15] ∧ m.keypad.firstHeld? = some 4 ∧
      m.keypad.isPressed 3 = false ∧ m.keypad.isPressed (-12) = false) ∧
      (¬ (0 ≤ (-13 : Int) ∧ (-13 : Int) < 16) ∧
        m.perform (.setKey (-13) true) = (⟨.error (.keyIndex (-13)), [.keyRejected (-13)]⟩, m)) ∧
      (KeyLayout.typewriter.key "Q" = .ok 4 ∧
        m.perform (.setNamedKey .typewriter "Q" false) = (m.withKey 4 false).silent) ∧
      (KeyLayout.typewriter.key "5" = .error (.keyName "5") ∧
        m.perform (.setNamedKey .typewriter "5" true) = (⟨.error (.keyName "5"), []⟩, m)) ∧
      (m.perform (.runFrame 4)).2.keypad.held = m.keypad.held ∧
      ((∀ k, keyEvents k others = keyEvents k pressAndRelease) ∧
        (start.after others).keypad.held = m.keypad.held) := by
  intro start m others
  obtain ⟨⟨hshows, -⟩, houtside, hnamed, hbatch, hsame⟩ :=
    keys_follow_last_event { strict := true } (.listed [0] 0) pressAndRelease
  have hevents : ∀ k, keyEvents k others = keyEvents k pressAndRelease := by decide +kernel
  have hlists : m.keypad.heldKeys = [4, 15] := by decide +kernel
  have hthree : m.keypad.isPressed 3 = false := by decide +kernel
  have hbelow : m.keypad.isPressed (-12) = false := by decide +kernel
  have hq : KeyLayout.typewriter.key "Q" = .ok 4 := by decide +kernel
  have hfive : KeyLayout.typewriter.key "5" = .error (.keyName "5") := by decide +kernel
  have hfirst : m.keypad.firstHeld? = some 4 := by
    rw [hshows.first, hlists]
    rfl
  exact ⟨⟨hlists, hfirst, hthree, hbelow⟩, ⟨by decide, houtside m (-13) true (by decide)⟩,
    ⟨hq, (hnamed m .typewriter "Q" false).1 4 hq⟩,
    ⟨hfive, (hnamed m .typewriter "5" true).2.1 _ hfive⟩, hbatch m (.runFrame 4) (.inr (.inr rfl)),
    hevents, hsame start others hevents⟩

end Machine

end Chip8
