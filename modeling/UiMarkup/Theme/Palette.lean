import UiMarkup.Style.Color

/-!
The colors that a theme defines.
-/

namespace UiMarkup

inductive PaletteColor
  | primary | secondary | success | warning | danger | background | surface | text | textSecondary
  deriving DecidableEq, Repr

namespace PaletteColor

def all : List PaletteColor :=
  [.primary, .secondary, .success, .warning, .danger, .background, .surface, .text, .textSecondary]

def name : PaletteColor → String
  | .primary => "primary"
  | .secondary => "secondary"
  | .success => "success"
  | .warning => "warning"
  | .danger => "danger"
  | .background => "background"
  | .surface => "surface"
  | .text => "text"
  | .textSecondary => "text_secondary"

def ofName? (s : String) : Option PaletteColor := all.find? fun c => c.name = s

theorem mem_all (c : PaletteColor) : c ∈ all := by
  cases c <;> decide

end PaletteColor

/-- A color for some of the roles. -/
structure Palette where
  color : PaletteColor → Option Color

namespace Palette

def empty : Palette := ⟨fun _ => none⟩

instance : Inhabited Palette := ⟨empty⟩

def set (p : Palette) (role : PaletteColor) (c : Color) : Palette :=
  ⟨fun r => if r = role then some c else p.color r⟩

/-- The roles without a color. -/
def missing (p : Palette) : List PaletteColor := PaletteColor.all.filter fun r => (p.color r).isNone

/-- Role by role, the color here or else that of the other palette. -/
def withDefaults (p q : Palette) : Palette := ⟨fun r => (p.color r).or (q.color r)⟩

end Palette
end UiMarkup
