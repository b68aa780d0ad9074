import Chip8.Command.Run
import Chip8.Command.Tree

/-! The end of a session: the picture is saved, if one is wanted. The surroundings are a world that
each access may change. -/
namespace Chip8.Command

variable {W S α β : Type} {m : Type → Type} [Monad m] {lib : Imaging S} {o : Options} {w : W}
  {e : HostError} {f : Failure}

/-- Saves the picture, if one is wanted. -/
def save (host : Host m) (lib : Imaging S) (o : Options) (d : Display) :
    m (Except Failure Unit) :=
  match o.screenshot with
  | none => return .ok ()
  | some name =>
    match d.image lib o.scale .white .black with
    | .error e => return .error (.misuse e)
    | .ok bytes => host.write (Path.ofText name) bytes

theorem save_of_none (h : o.screenshot = none) (host : Host m) (lib : Imaging S) (d : Display) :
    save host lib o d = return .ok () := by
  rw [save, h]

/-- The session, once the picture has been saved. -/
def Session.saved (s : Session) (o : Options) : Session :=
  match o.screenshot with
  | none => s
  | some name => s.tell (sayIfVerbose o s!"Screenshot written to: {(Path.ofText name).text}")

theorem close_eq [LawfulMonad m] (s : Session) (host : Host m) (lib : Imaging S) (o : Options) :
    s.close host lib o = do
      match ← save host lib o s.machine.display with
      | .error f => return s.fail o f
      | .ok () => return (s.saved o).outcome := by
  unfold Session.close save Session.saved
  cases o.screenshot with
  | none => simp
  | some name =>
    simp only []
    cases s.machine.display.image lib o.scale .white .black with
    | error e => simp
    | ok bytes => rfl

/-- A picture fails for other reasons than those that hosts are to expect. -/
theorem image_expected {d : Display} {scale : Int} {on off : Color}
    (h : d.image lib scale on off = .error e) : e.expected = false := by
  unfold Display.image at h
  split at h
  · cases h
    rfl
  · generalize (do lib.png (← d.painted lib scale on off)) = file at h
    cases file with
    | error _ =>
      cases h
      rfl
    | ok _ => cases h

namespace Failure

/-- The surroundings report it. The library and its command line have errors of their own. -/
def external : Failure → Bool
  | misuse e => !e.expected
  | parameter _ => false
  | missing _ | forbidden _ | system _ | unexpected _ => true

def fromSystem : Failure → Bool
  | missing _ | forbidden _ | system _ => true
  | misuse _ | parameter _ | unexpected _ => false

/-- The file is missing or not to be touched. -/
def barred : Failure → Bool
  | missing _ | forbidden _ => true
  | misuse _ | parameter _ | system _ | unexpected _ => false

theorem number_of_external (h : f.external = true) :
    f.exitCode.number = if f.barred then 2 else 3 := by
  cases f with
  | misuse e =>
    have he : e.expected = false := by simpa [external] using h
    simp only [exitCode, he]
    rfl
  | parameter => cases h
  | missing | forbidden | system | unexpected => rfl

theorem number_of_unreadable (h : f.external = true) (path : String) :
    (unreadable path f).exitCode.number = if f.fromSystem then 2 else 3 := by
  cases f with
  | missing | forbidden | system => rfl
  | misuse | parameter | unexpected => exact number_of_external h

theorem number_ne_one (f : Failure) : f.exitCode.number ≠ 1 := by
  unfold exitCode
  split
  · split
    · decide
    · decide
  all_goals decide

end Failure

/-- Reads and writes fail as those of a file system do. -/
structure Host.External (host : Host (StateM W)) : Prop where
  read : ∀ path w f, (host.read path w).1 = .error f → f.external = true
  write : ∀ path bytes w f, (host.write path bytes w).1 = .error f → f.external = true

variable {host : Host (StateM W)} {path : Path}

theorem save_external (h : host.External) {d : Display}
    (hf : (save host lib o d w).1 = .error f) : f.external = true := by
  unfold save at hf
  cases hs : o.screenshot with
  | none =>
    rw [hs] at hf
    cases hf
  | some name =>
    rw [hs] at hf
    cases hi : d.image lib o.scale .white .black with
    | error e =>
      simp only [hi] at hf
      cases hf
      rw [Failure.external, image_expected hi]
      rfl
    | ok bytes =>
      simp only [hi] at hf
      exact h.write _ _ _ _ hf

/-- Only the picture is written. -/
theorem save_world (host : Host (StateM W)) (lib : Imaging S) (o : Options) (d : Display) (w : W) :
    (save host lib o d w).2 = w ∨ ∃ name bytes, o.screenshot = some name ∧
      (save host lib o d w).2 = (host.write (Path.ofText name) bytes w).2 := by
  unfold save
  cases o.screenshot with
  | none => exact .inl rfl
  | some name =>
    cases d.image lib o.scale .white .black with
    | error e => exact .inl rfl
    | ok bytes => exact .inr ⟨name, bytes, rfl, rfl⟩

theorem stateM_bind (act : StateM W α) (f : α → StateM W β) (w : W) :
    (act >>= f) w = f (act w).1 (act w).2 := rfl

theorem stateM_pure (a : α) (w : W) : (pure a : StateM W α) w = (a, w) := rfl

variable {s : Session}

theorem close_of_saved (h : (save host lib o s.machine.display w).1 = .ok ()) :
    s.close host lib o w = ((s.saved o).outcome, (save host lib o s.machine.display w).2) := by
  rw [close_eq, stateM_bind, h]
  rfl

theorem close_of_unsaved (h : (save host lib o s.machine.display w).1 = .error f) :
    s.close host lib o w = (s.fail o f, (save host lib o s.machine.display w).2) := by
  rw [close_eq, stateM_bind, h]
  rfl

theorem Session.saved_machine (s : Session) (o : Options) : (s.saved o).machine = s.machine := by
  unfold Session.saved
  cases o.screenshot with
  | none => rfl
  | some name => rfl

theorem Session.saved_stdout (s : Session) (o : Options) : (s.saved o).stdout = s.stdout := by
  unfold Session.saved
  cases o.screenshot with
  | none => rfl
  | some name => rfl

theorem close_world (s : Session) (host : Host (StateM W)) (lib : Imaging S) (o : Options)
    (w : W) :
    (s.close host lib o w).2 = (save host lib o s.machine.display w).2 := by
  cases h : (save host lib o s.machine.display w).1 with
  | error f => rw [close_of_unsaved h]
  | ok => rw [close_of_saved h]

theorem Session.outcome_stdout (s : Session) : s.outcome.stdout = s.stdout := by
  unfold Session.outcome
  split
  · rfl
  · rfl

theorem close_stdout (s : Session) (host : Host (StateM W)) (lib : Imaging S) (o : Options)
    (w : W) :
    (s.close host lib o w).1.stdout = s.stdout := by
  cases h : (save host lib o s.machine.display w).1 with
  | error f =>
    rw [close_of_unsaved h]
    rfl
  | ok =>
    rw [close_of_saved h]
    exact (s.saved o).outcome_stdout.trans (s.saved_stdout o)

/-- The code tells first whether the picture was saved, then whether the program came to a halt. -/
theorem close_code (hhost : host.External) (lib : Imaging S) (s : Session) (o : Options) (w : W) :
    (∀ f, (save host lib o s.machine.display w).1 = .error f →
      (s.close host lib o w).1.exitCode.number = if f.barred then 2 else 3) ∧
    ((save host lib o s.machine.display w).1 = .ok () →
      (s.machine.fault = none → (s.close host lib o w).1.exitCode.number = 0) ∧
      ∀ f, s.machine.fault = some f → (s.close host lib o w).1.exitCode.number = 1 ∧
        ∃ said, (s.close host lib o w).1.stderr = said ++ say ("Error: " ++ f.message)) := by
  refine ⟨fun f h => ?_, fun h => ?_⟩
  · rw [close_of_unsaved h]
    exact Failure.number_of_external (save_external hhost h)
  · rw [close_of_saved h, ← s.saved_machine o, Session.outcome]
    refine ⟨fun hnone => ?_, fun f hf => ?_⟩
    · rw [hnone]
      rfl
    · rw [hf]
      exact ⟨rfl, _, rfl⟩

theorem halted_of_close (h : (s.close host lib o w).1.exitCode.number = 1) :
    s.machine.fault ≠ none := by
  intro hnone
  cases hsaved : (save host lib o s.machine.display w).1 with
  | error f =>
    rw [close_of_unsaved hsaved] at h
    exact f.number_ne_one h
  | ok =>
    rw [close_of_saved hsaved, Session.outcome, s.saved_machine o, hnone] at h
    cases h

theorem Obstacle.external_failure (b : Obstacle) (file : String) :
    (b.failure file).external = true := by
  cases b with
  | _ => rfl

theorem Tree.read_external {t : Tree} (h : t.read path = .error f) : f.external = true := by
  unfold Tree.read at h
  split at h
  · cases h
    rfl
  · split at h
    · cases h
      exact Obstacle.external_failure _ _
    · split at h
      · cases h
      · cases h
        exact Obstacle.external_failure _ _
      · cases h
        exact Obstacle.external_failure _ _

theorem Tree.write_external {t : Tree} {bytes : List UInt8} (h : t.write path bytes = .error f) :
    f.external = true := by
  unfold Tree.write at h
  split at h
  · cases h
    rfl
  · split at h
    · cases h
      exact Obstacle.external_failure _ _
    · split at h
      · cases h
        exact Obstacle.external_failure _ _
      · cases h

/-- What keeps a file from its place does not depend on what is in it. -/
theorem Tree.write_of_obstacle {t : Tree} {b : Obstacle} (hnul : holdsNul path.text = false)
    (h : t.findPath path = .error b) (bytes : List UInt8) :
    t.write path bytes = .error (b.failure path.text) := by
  rw [Tree.write, hnul, h]
  rfl

theorem Tree.host_write (t : Tree) (path : Path) (bytes : List UInt8) :
    Tree.host.write path bytes t = match t.write path bytes with
      | .error f => (.error f, t)
      | .ok later => (.ok (), later) := by
  have hread : Tree.host.write path bytes t = (match t.write path bytes with
      | .error f => return .error f
      | .ok later => do
        set later
        return .ok () : StateM Tree (Except Failure Unit)) t := rfl
  rw [hread]
  cases t.write path bytes with
  | error f => rfl
  | ok later => rfl

/-- The tree in memory fails as a file system does. -/
theorem Tree.host_external : Tree.host.External where
  read _ _ _ h := Tree.read_external h
  write path bytes t f h := by
    rw [Tree.host_write] at h
    cases hw : t.write path bytes with
    | error g =>
      rw [hw] at h
      cases h
      exact Tree.write_external hw
    | ok later =>
      rw [hw] at h
      cases h

end Chip8.Command
