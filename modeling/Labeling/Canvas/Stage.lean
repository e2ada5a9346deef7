import Labeling.Canvas.Scene

/-!
# The stage

The stage knows the size of the image being annotated and the size of the element that
shows it, which become known in either order, and from both the scale between them.
Positions of the pointer arrive in the pixels of the screen and are turned into image
pixels before anything is done with them.

An image is shown at one scale in both directions. `Display.fit` takes the greatest
scale at which the image fits into the element that shows it; a size that gives no
positive scale leaves the image at its natural size.
-/

namespace Labeling

/-! ## From image to screen -/

/-- The scale at which an image is shown. -/
structure Display (α : Type) where
  scale : α
  deriving Repr

namespace Display

variable {α : Type} [Scalar α]

/-- The image at its natural size. -/
def identity : Display α := ⟨Scalar.one⟩

/-- Fit an image into an element of the given width and height. -/
def fit (natural : Dims) (width height : α) : Display α :=
  if natural.width = 0 ∨ natural.height = 0 then identity
  else
    let scale := Scalar.minimum (width / Scalar.ofInt natural.width)
      (height / Scalar.ofInt natural.height)
    if Scalar.isFinite scale && Scalar.lt Scalar.zero scale then ⟨scale⟩ else identity

/-- The position in the image of a position on the screen. -/
def toNatural (d : Display α) (p : Point α) : Point α := ⟨p.x / d.scale, p.y / d.scale⟩

/-- The position on the screen of a position in the image. -/
def toDisplay (d : Display α) (p : Point α) : Point α := ⟨p.x * d.scale, p.y * d.scale⟩

/-- The size of the image on the screen, in whole pixels. -/
def stageSize (d : Display α) (natural : Dims) : Dims :=
  ⟨Scalar.toSize (d.scale * Scalar.ofInt natural.width),
    Scalar.toSize (d.scale * Scalar.ofInt natural.height)⟩

end Display

/-! ## The image and its element -/

/-- The image being annotated and how it is shown. -/
structure Stage (α : Type) where
  /-- The size of the image, if there is one. -/
  natural : Option Dims
  /-- The width and height of the element that shows it, once they are known. -/
  displayed : Option (α × α)
  display : Display α
  deriving Repr

namespace Stage

variable {α : Type} [Scalar α]

/-- A stage without image and size. -/
def empty : Stage α := ⟨none, none, .identity⟩

/-- Compute the scale anew from what is known. -/
def refit (s : Stage α) : Stage α :=
  match s.natural, s.displayed with
  | some natural, some (width, height) => { s with display := .fit natural width height }
  | _, _ => { s with display := .identity }

/-- Attach an image. -/
def attach (s : Stage α) (natural : Dims) : Stage α :=
  { s with natural := some natural }.refit

/-- Forget the image; the size of the element and the scale stay. -/
def detach (s : Stage α) : Stage α := { s with natural := none }

/-- Set the size of the element that shows the image. -/
def resize (s : Stage α) (width height : α) : Stage α :=
  { s with displayed := some (width, height) }.refit

/-- There is an image. -/
def isAttached (s : Stage α) : Bool := s.natural.isSome

/-- The position in the image of a position on the screen. -/
def toNatural (s : Stage α) (p : Point α) : Point α := s.display.toNatural p

/-- A scene that shows nothing, in the size of the image on the screen. -/
def blankScene? (s : Stage α) : Option (Scene α) :=
  s.natural.map fun natural => .blank (s.display.stageSize natural) s.display.scale

end Stage

end Labeling
