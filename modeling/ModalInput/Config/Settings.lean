/-!
# Settings

The colours of the indicator and the behaviour of the keys.  Each setting has a default of its own,
and the settings as a whole have one.
-/

namespace ModalInput

@[ext]
structure Style where
  background : String
  foreground : String
  deriving DecidableEq, Repr

namespace Style

def defaultNormal : Style := ⟨"#1a73e8", "white"⟩

def defaultInsert : Style := ⟨"#34a853", "white"⟩

def defaultVisual : Style := ⟨"#fbbc04", "black"⟩

def defaultSearch : Style := ⟨"#9c27b0", "white"⟩

def defaultPending : Style := ⟨"#ea4335", "white"⟩

end Style

/-- The style of each state that the indicator tells apart. -/
structure Theme where
  normal : Style
  insert : Style
  /-- Both visual modes. -/
  visual : Style
  search : Style
  /-- All modes that wait for one more key. -/
  pending : Style
  deriving DecidableEq, Repr

def Theme.default : Theme where
  normal := .defaultNormal
  insert := .defaultInsert
  visual := .defaultVisual
  search := .defaultSearch
  pending := .defaultPending

structure KeySettings where
  /-- With control held in Insert mode, it opens Normal mode for one command. -/
  oneShot : Char
  countLimit : Nat
  deriving DecidableEq, Repr

namespace KeySettings

def defaultOneShot : Char := 'o'

def defaultCountLimit : Nat := 10000

def default : KeySettings := ⟨defaultOneShot, defaultCountLimit⟩

end KeySettings

structure Config where
  theme : Theme
  keys : KeySettings
  deriving DecidableEq, Repr

def Config.default : Config := ⟨.default, .default⟩

end ModalInput
