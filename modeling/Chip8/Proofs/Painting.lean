import Chip8.Display.Sheet
import Mathlib.Data.List.Basic

/-! Pictures of the screen, as a reliable imaging library makes them. What the library returns can
be relied on, not that it returns: it may refuse any call, for want of memory or for limits of its
own. The squares of a picture meet without a gap and without an overlap, so every place of it shows
one pixel. -/
namespace Chip8

variable {S κ : Type}

/-- What there is to see on a sheet and in a file, and the colour that three numbers stand for. -/
structure Viewer (S : Type) where
  size : S → Nat × Nat
  color : S → Nat → Nat → Rgb
  ink : Color → Rgb
  read? : List UInt8 → Option S

namespace Box

def Ordered (b : Box) : Prop := b.left ≤ b.right ∧ b.top ≤ b.bottom

def Has (b : Box) (x y : Nat) : Prop := b.HasColumn x ∧ b.HasRow y

end Box

namespace Viewer

variable {v : Viewer S} {s t : S} {A B : Nat → Nat → Prop} {c : Rgb} {f : S → Except ForeignError S}
  {x y : Nat}

/-- The place is on the sheet. -/
def Holds (v : Viewer S) (s : S) (x y : Nat) : Prop := x < (v.size s).1 ∧ y < (v.size s).2

def Sized (v : Viewer S) (s : S) (width height : Int) : Prop :=
  ((v.size s).1 : Int) = width ∧ ((v.size s).2 : Int) = height

/-- Sheets that look the same. -/
structure Same (v : Viewer S) (s t : S) : Prop where
  size : v.size t = v.size s
  color : ∀ x y, v.Holds s x y → v.color t x y = v.color s x y

/-- The places of the area `A` become `c`, and all others stay as they are. -/
structure Paints (v : Viewer S) (A : Nat → Nat → Prop) (c : Rgb)
    (f : S → Except ForeignError S) : Prop where
  size : ∀ {s t}, f s = .ok t → v.size t = v.size s
  inside : ∀ {s t}, f s = .ok t → ∀ {x y}, v.Holds s x y → A x y → v.color t x y = c
  outside : ∀ {s t}, f s = .ok t → ∀ {x y}, v.Holds s x y → ¬ A x y → v.color t x y = v.color s x y

end Viewer

namespace Imaging

/-- What the library returns is what it was asked for: a new sheet is filled, a rectangle fills its
box with the sides, and a file gives the picture back. -/
structure Reliable (lib : Imaging S) (v : Viewer S) : Prop where
  ink : ∀ c : Rgb, v.ink c.color = c
  sheet : ∀ {width height c s}, lib.sheet width height c = .ok s →
    v.Sized s width height ∧ ∀ x y, v.Holds s x y → v.color s x y = v.ink c
  rectangle : ∀ {b : Box}, b.Ordered → ∀ c, v.Paints b.Has (v.ink c) (lib.rectangle b c)
  png : ∀ {s file}, lib.png s = .ok file → ∃ t, v.read? file = some t ∧ v.Same s t

/-- The library ends with this error one of the calls that a picture of this size and in these
colours takes. -/
inductive Refuses (lib : Imaging S) (v : Viewer S) (width height : Int) (on off : Color)
    (e : ForeignError) : Prop
  | sheet (h : lib.sheet width height off = .error e)
  | rectangle {b : Box} {s : S} (hb : b.Ordered) (hs : v.Sized s width height)
    (h : lib.rectangle b on s = .error e)
  | png {s : S} (hs : v.Sized s width height) (h : lib.png s = .error e)

end Imaging

/-- The file holds a picture with a square of `scale` by `scale` for each pixel. -/
def Viewer.Shows (v : Viewer S) (file : List UInt8) (d : Display) (scale : Int) (on off : Rgb) :
    Prop :=
  ∃ s, v.read? file = some s ∧ v.Sized s (64 * scale) (32 * scale) ∧
    ∀ x y, v.Holds s x y → ∃ lit, d.pixel (x / scale) (y / scale) = .ok lit ∧
      v.color s x y = if lit then on else off

/-! Loops that may break off. -/
section Loops

variable {round : S → κ → Except ForeignError S} {ks : List κ} {s t : S} {e : ForeignError}

theorem bind_eq_ok {ε α β : Type} {x : Except ε α} {f : α → Except ε β} {b : β}
    (h : (x >>= f) = .ok b) : ∃ a, x = .ok a ∧ f a = .ok b := by
  cases x with
  | error e => cases h
  | ok a => exact ⟨a, rfl, h⟩

theorem bind_eq_error {ε α β : Type} {x : Except ε α} {f : α → Except ε β} {e : ε}
    (h : (x >>= f) = .error e) : x = .error e ∨ ∃ a, x = .ok a ∧ f a = .error e := by
  cases x with
  | error e' =>
    cases h
    exact .inl rfl
  | ok a => exact .inr ⟨a, rfl, h⟩

/-- Where a loop breaks off, what every round keeps still holds. -/
theorem foldlM_eq_error {P : S → Prop} (h : ∀ k ∈ ks, ∀ s t, P s → round s k = .ok t → P t)
    (hs : P s) (he : ks.foldlM round s = .error e) :
    ∃ k ∈ ks, ∃ t, P t ∧ round t k = .error e := by
  induction ks generalizing s with
  | nil => cases he
  | cons k ks ih =>
    obtain ⟨hfirst, hrest⟩ := List.forall_mem_cons.mp h
    rw [List.foldlM_cons] at he
    rcases bind_eq_error he with hk | ⟨t, ht, hks⟩
    · exact ⟨k, by simp, s, hs, hk⟩
    · obtain ⟨j, hj, hround⟩ := ih hrest (hfirst s t hs ht) hks
      exact ⟨j, by simp [hj], hround⟩

end Loops

namespace Viewer

variable {v : Viewer S} {s t : S} {A B : Nat → Nat → Prop} {c : Rgb} {f : S → Except ForeignError S}
  {x y : Nat}

theorem holds_of_size (h : v.size t = v.size s) : v.Holds t x y ↔ v.Holds s x y := by
  rw [Holds, Holds, h]

theorem sized_of_size {width height : Int} (h : v.size t = v.size s) :
    v.Sized t width height ↔ v.Sized s width height := by
  rw [Sized, Sized, h]

namespace Paints

theorem nothing : v.Paints (fun _ _ => False) c .ok where
  size h := by cases h; rfl
  inside _ _ _ _ h := h.elim
  outside h _ _ _ _ := by cases h; rfl

theorem congr (h : v.Paints A c f) (hAB : ∀ x y, A x y ↔ B x y) : v.Paints B c f where
  size := h.size
  inside hf _ _ hxy hB := h.inside hf hxy ((hAB _ _).mpr hB)
  outside hf _ _ hxy hB := h.outside hf hxy (mt (hAB _ _).mp hB)

/-- A loop that paints one area in each round paints them all. -/
theorem foldlM {round : S → κ → Except ForeignError S} {area : κ → Nat → Nat → Prop} {ks : List κ}
    (h : ∀ k ∈ ks, v.Paints (area k) c fun s => round s k) :
    v.Paints (fun x y => ∃ k ∈ ks, area k x y) c fun s => ks.foldlM round s := by
  induction ks with
  | nil => exact nothing.congr (by simp)
  | cons k ks ih =>
    obtain ⟨hfirst, hrest⟩ := List.forall_mem_cons.mp h
    have hlater := ih hrest
    refine ⟨fun {s t} hloop => ?_, fun {s t} hloop {x y} hxy hin => ?_,
      fun {s t} hloop {x y} hxy hout => ?_⟩
    all_goals
      obtain ⟨r, hr, hks⟩ := bind_eq_ok (hloop.symm.trans List.foldlM_cons).symm
      have hsize := hfirst.size hr
    · exact (hlater.size hks).trans hsize
    · have hxyr : v.Holds r x y := (holds_of_size hsize).mpr hxy
      -- A later round paints the place in the same colour, whether or not this one did.
      by_cases hrest : ∃ j ∈ ks, area j x y
      · exact hlater.inside hks hxyr hrest
      · have hk : area k x y := ((List.exists_mem_cons_iff _ _ _).mp hin).resolve_right hrest
        rw [hlater.outside hks hxyr hrest, hfirst.inside hr hxy hk]
    · obtain ⟨hk, hrest⟩ := not_or.mp (mt (List.exists_mem_cons_iff _ _ _).mpr hout)
      have hxyr : v.Holds r x y := (holds_of_size hsize).mpr hxy
      rw [hlater.outside hks hxyr hrest, hfirst.outside hr hxy hk]

end Paints

end Viewer

namespace Display

variable {lib : Imaging S} {v : Viewer S} {d : Display} {scale : Int} {on off : Color} {s : S}
  {e : ForeignError}

theorem pixel_eq_ok (d : Display) (x : Fin 64) (y : Fin 32) : d.pixel x y = .ok (d.lit x y) := by
  rw [pixel, dif_pos (by omega)]
  rfl

theorem ordered_square (h : 1 ≤ scale) (x : Fin 64) (y : Fin 32) : (square scale x y).Ordered := by
  have hside : ∀ k : Int, k * scale ≤ (k + 1) * scale - 1 := by
    intro k
    rw [Int.add_mul]
    omega
  exact ⟨hside x, hside y⟩

/-- Squares that stand next to each other share no place and leave none out. -/
theorem square_has_iff (h : 1 ≤ scale) {x : Fin 64} {y : Fin 32} {X Y : Nat} :
    (square scale x y).Has X Y ↔ (X : Int) / scale = x ∧ (Y : Int) / scale = y := by
  have hside : ∀ k K : Int, (k * scale ≤ K ∧ K ≤ (k + 1) * scale - 1) ↔ K / scale = k := by
    intro k K
    have hlow := Int.le_ediv_iff_mul_le (a := k) (b := K) (show 0 < scale by omega)
    have hhigh := Int.ediv_lt_iff_lt_mul (a := K) (b := k + 1) (show 0 < scale by omega)
    omega
  exact and_congr (hside x X) (hside y Y)

theorem paints_pixel (hlib : lib.Reliable v) (h : 1 ≤ scale) (d : Display) (on : Color)
    (x : Fin 64) (y : Fin 32) :
    v.Paints (fun X Y => d.lit x y = true ∧ (X : Int) / scale = x ∧ (Y : Int) / scale = y)
      (v.ink on) fun s => d.paintPixel lib scale on y s x := by
  have hsquare := hlib.rectangle (ordered_square h x y) on
  unfold paintPixel
  cases d.lit x y with
  | true => exact hsquare.congr fun X Y => by simp [square_has_iff h]
  | false => exact Viewer.Paints.nothing.congr fun X Y => by simp

theorem paints_row (hlib : lib.Reliable v) (h : 1 ≤ scale) (d : Display) (on : Color)
    (y : Fin 32) :
    v.Paints (fun X Y => ∃ x ∈ List.finRange 64,
        d.lit x y = true ∧ (X : Int) / scale = x ∧ (Y : Int) / scale = y) (v.ink on)
      fun s => d.paintRow lib scale on s y :=
  .foldlM fun x _ => d.paints_pixel hlib h on x y

/-- The loop over the screen paints the squares of the lit pixels. -/
theorem paints_screen (hlib : lib.Reliable v) (h : 1 ≤ scale) (d : Display) (on : Color) :
    v.Paints (fun X Y => ∃ y : Fin 32, ∃ x : Fin 64,
        d.lit x y = true ∧ (X : Int) / scale = x ∧ (Y : Int) / scale = y) (v.ink on)
      fun s => (List.finRange 32).foldlM (d.paintRow lib scale on) s := by
  have hloop : v.Paints _ (v.ink on)
      fun s => (List.finRange 32).foldlM (d.paintRow lib scale on) s :=
    .foldlM fun y _ => d.paints_row hlib h on y
  exact hloop.congr fun X Y => by simp

theorem exists_pixel {X Y : Nat} (h : 1 ≤ scale) (hX : (X : Int) < 64 * scale)
    (hY : (Y : Int) < 32 * scale) :
    ∃ (x : Fin 64) (y : Fin 32), (X : Int) / scale = x ∧ (Y : Int) / scale = y := by
  have hx : (X : Int) / scale < 64 := Int.ediv_lt_of_lt_mul (by omega) hX
  have hy : (Y : Int) / scale < 32 := Int.ediv_lt_of_lt_mul (by omega) hY
  have hx0 : 0 ≤ (X : Int) / scale := Int.ediv_nonneg (by omega) (by omega)
  have hy0 : 0 ≤ (Y : Int) / scale := Int.ediv_nonneg (by omega) (by omega)
  exact ⟨⟨((X : Int) / scale).toNat, by omega⟩, ⟨((Y : Int) / scale).toNat, by omega⟩,
    (Int.toNat_of_nonneg hx0).symm, (Int.toNat_of_nonneg hy0).symm⟩

theorem sized_painted (hlib : lib.Reliable v) (h : 1 ≤ scale)
    (hs : d.painted lib scale on off = .ok s) : v.Sized s (64 * scale) (32 * scale) := by
  obtain ⟨sheet, hsheet, hloop⟩ := bind_eq_ok hs
  have hsize := (d.paints_screen hlib h on).size hloop
  exact (Viewer.sized_of_size hsize).mpr (hlib.sheet hsheet).1

/-- Each place lies in the square of one pixel and has the colour of that pixel. -/
theorem color_painted (hlib : lib.Reliable v) (h : 1 ≤ scale)
    (hs : d.painted lib scale on off = .ok s) {X Y : Nat} (hXY : v.Holds s X Y) :
    ∃ lit, d.pixel (X / scale) (Y / scale) = .ok lit ∧
      v.color s X Y = if lit then v.ink on else v.ink off := by
  obtain ⟨hwidth, hheight⟩ := sized_painted hlib h hs
  obtain ⟨x, y, hx, hy⟩ := exists_pixel h
    (show (X : Int) < 64 * scale by have := hXY.1; omega)
    (show (Y : Int) < 32 * scale by have := hXY.2; omega)
  obtain ⟨sheet, hsheet, hloop⟩ := bind_eq_ok hs
  have hpaints := d.paints_screen hlib h on
  have hsheetXY : v.Holds sheet X Y := (Viewer.holds_of_size (hpaints.size hloop)).mp hXY
  refine ⟨d.lit x y, ?_, ?_⟩
  · rw [hx, hy, pixel_eq_ok]
  by_cases hlit : d.lit x y = true
  · rw [hpaints.inside hloop hsheetXY ⟨y, x, hlit, hx, hy⟩, if_pos hlit]
  · have hout : ¬ ∃ y' : Fin 32, ∃ x' : Fin 64,
        d.lit x' y' = true ∧ (X : Int) / scale = x' ∧ (Y : Int) / scale = y' := by
      rintro ⟨y', x', hlit', hx', hy'⟩
      obtain rfl : x' = x := Fin.ext (by omega)
      obtain rfl : y' = y := Fin.ext (by omega)
      exact hlit hlit'
    rw [hpaints.outside hloop hsheetXY hout, (hlib.sheet hsheet).2 X Y hsheetXY, if_neg hlit]

theorem refuses_of_painted (hlib : lib.Reliable v) (h : 1 ≤ scale)
    (hs : d.painted lib scale on off = .error e) :
    lib.Refuses v (64 * scale) (32 * scale) on off e := by
  rcases bind_eq_error hs with hsheet | ⟨sheet, hsheet, hloop⟩
  · exact .sheet hsheet
  have hrows : ∀ y ∈ List.finRange 32, ∀ s t, v.Sized s (64 * scale) (32 * scale) →
      d.paintRow lib scale on s y = .ok t → v.Sized t (64 * scale) (32 * scale) :=
    fun y _ s t hs ht => (Viewer.sized_of_size ((d.paints_row hlib h on y).size ht)).mpr hs
  have hpixels : ∀ y, ∀ x ∈ List.finRange 64, ∀ s t, v.Sized s (64 * scale) (32 * scale) →
      d.paintPixel lib scale on y s x = .ok t → v.Sized t (64 * scale) (32 * scale) :=
    fun y x _ s t hs ht => (Viewer.sized_of_size ((d.paints_pixel hlib h on x y).size ht)).mpr hs
  obtain ⟨y, -, s, hsized, hrow⟩ := foldlM_eq_error hrows (hlib.sheet hsheet).1 hloop
  obtain ⟨x, -, t, hsized, hpixel⟩ := foldlM_eq_error (hpixels y) hsized hrow
  unfold paintPixel at hpixel
  split at hpixel
  · exact .rectangle (ordered_square h x y) hsized hpixel
  · cases hpixel

/-! The file. -/

theorem image_of_small (h : scale < 1) (d : Display) (lib : Imaging S) (on off : Color) :
    d.image lib scale on off = .error (.scale scale) := if_pos h

theorem image_eq (h : 1 ≤ scale) (d : Display) (lib : Imaging S) (on off : Color) :
    d.image lib scale on off = (d.painted lib scale on off >>= lib.png).mapError .foreign :=
  if_neg (by omega)

theorem shows_of_saved (hlib : lib.Reliable v) (h : 1 ≤ scale)
    (hs : d.painted lib scale on off = .ok s) {file : List UInt8} (hfile : lib.png s = .ok file) :
    v.Shows file d scale (v.ink on) (v.ink off) := by
  obtain ⟨t, hread, hsame⟩ := hlib.png hfile
  refine ⟨t, hread, ?_, fun X Y hXY => ?_⟩
  · exact (Viewer.sized_of_size hsame.size).mpr (sized_painted hlib h hs)
  · have hXYs : v.Holds s X Y := (Viewer.holds_of_size hsame.size).mp hXY
    rw [hsame.color X Y hXYs]
    exact color_painted hlib h hs hXYs

/-- Either there is a picture, and it is the right one, or the library has refused it. -/
theorem image_shows_or_refused (hlib : lib.Reliable v) (h : 1 ≤ scale) (d : Display)
    (on off : Color) :
    (∃ file, d.image lib scale on off = .ok file ∧ v.Shows file d scale (v.ink on) (v.ink off)) ∨
      ∃ e, lib.Refuses v (64 * scale) (32 * scale) on off e ∧
        d.image lib scale on off = .error (.foreign e) := by
  rw [d.image_eq h]
  cases hs : d.painted lib scale on off with
  | error e => exact .inr ⟨e, refuses_of_painted hlib h hs, rfl⟩
  | ok s =>
    cases hfile : lib.png s with
    | error e =>
      exact .inr ⟨e, .png (sized_painted hlib h hs) hfile,
        congrArg (Except.mapError HostError.foreign) hfile⟩
    | ok file =>
      exact .inl ⟨file, congrArg (Except.mapError HostError.foreign) hfile,
        shows_of_saved hlib h hs hfile⟩

/-- A library that refuses nothing leaves a picture. -/
theorem exists_image (hlib : lib.Reliable v) (h : 1 ≤ scale)
    (hserved : ∀ e, ¬ lib.Refuses v (64 * scale) (32 * scale) on off e) (d : Display) :
    ∃ file, d.image lib scale on off = .ok file ∧ v.Shows file d scale (v.ink on) (v.ink off) :=
  (d.image_shows_or_refused hlib h on off).resolve_right fun ⟨e, he, _⟩ => hserved e he

end Display

end Chip8
