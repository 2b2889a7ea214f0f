import ModalInput.Key.Notation

/-!
# The grammar of key notation

Which texts are well formed and what they stand for, said without the reader; and, of a text that
is not, which bracket is at fault.  A text is a row of items.  An item is a character other than
`<`, or a bracket `<...>` that ends at the first `>` and holds modifier letters, each with a dash,
and then one character or the name of a key.
-/

namespace ModalInput.Notation

/-! ## Brackets -/

/-- The letters that stand for a modifier in front of a dash. -/
def modifierLetters : Modifier → List Char
  | .control => ['C', 'c']
  | .alt => ['A', 'a']
  | .super => ['M', 'm', 'D', 'd']
  | .shift => ['S', 's']

/-- The names that a key goes by in a bracket, in lower case. -/
def spellings : NamedKey → List String
  | .escape => ["esc", "escape"]
  | .enter => ["cr", "enter", "return"]
  | .backspace => ["bs", "backspace"]
  | .delete => ["del", "delete"]
  | .tab => ["tab"]
  | .left => ["left"]
  | .right => ["right"]
  | .up => ["up"]
  | .down => ["down"]
  | .home => ["home"]
  | .end => ["end"]

def lowercase (w : List Char) : String := String.ofList (w.map Char.toLower)

/-- The text `w` stands for the key in a bracket.  Two characters have names, since one of them
opens a bracket and the other does not show. -/
inductive Names : List Char → String → Prop
  | char (c : Char) : Names [c] (String.singleton c)
  | key (k : NamedKey) {w : List Char} (h : lowercase w ∈ spellings k) : Names w k.name
  | space {w : List Char} (h : lowercase w = "space") : Names w " "
  | lt {w : List Char} (h : lowercase w = "lt") : Names w "<"

/-- The text of a bracket, with the modifiers in the order in which it has them. -/
inductive Token : List Char → List Modifier → String → Prop
  | key {w : List Char} {key : String} (h : Names w key) : Token w [] key
  | hold {x : Char} {m : Modifier} {w : List Char} {ms : List Modifier} {key : String}
      (hx : x ∈ modifierLetters m) (h : Token w ms key) : Token (x :: '-' :: w) (m :: ms) key

/-- The name of a key that is one uppercase character. -/
def isUppercaseName (key : String) : Bool :=
  key.toList.length = 1 && key.toList.all Text.isUppercase

/-- The press of a bracket: its modifiers taken together, and shift for an uppercase character. -/
def bracketPress (ms : List Modifier) (key : String) : Press where
  name := key
  shift := decide (.shift ∈ ms) || isUppercaseName key
  control := decide (.control ∈ ms)
  alt := decide (.alt ∈ ms)
  super := decide (.super ∈ ms)

/-! ## Texts -/

/-- The press of a character alone. -/
def barePress (c : Char) : Press where
  name := String.singleton c
  shift := Text.isUppercase c
  control := false
  alt := false
  super := false

inductive Item : List Char → Press → Prop
  | char {c : Char} (h : c ≠ '<') : Item [c] (barePress c)
  | bracket {w : List Char} {ms : List Modifier} {key : String} (hw : '>' ∉ w)
      (h : Token w ms key) : Item ('<' :: w ++ ['>']) (bracketPress ms key)

/-- A row of items, with one press for each of them. -/
inductive Written : List Char → List Press → Prop
  | nil : Written [] []
  | cons {u v : List Char} {p : Press} {ps : List Press} (h : Item u p) (hv : Written v ps) :
      Written (u ++ v) (p :: ps)

/-- The bytes that a text takes. -/
def byteSize (w : List Char) : Nat := (String.ofList w).utf8ByteSize

/-- A text that is well formed up to the bracket at fault. -/
inductive Faulty : List Char → Fault → Prop
  | unterminated {u v : List Char} {ps : List Press} (hu : Written u ps) (hv : '>' ∉ v) :
      Faulty (u ++ '<' :: v) (.unterminated (byteSize u))
  | unknownName {u w v : List Char} {ps : List Press} (hu : Written u ps) (hw : '>' ∉ w)
      (h : ∀ ms key, ¬ Token w ms key) :
      Faulty (u ++ '<' :: w ++ '>' :: v) (.unknownName (byteSize u) (String.ofList w))

/-! ## Lemmas -/

theorem shift_ofName (key : String) : (Press.ofName key).shift = isUppercaseName key := by
  unfold Press.ofName isUppercaseName
  dsimp only
  generalize key.toList = w
  rcases w with _ | ⟨c, _ | ⟨d, w⟩⟩ <;> simp

theorem ofChar_eq_barePress (c : Char) : Press.ofChar c = barePress c := by
  unfold Press.ofChar barePress Press.ofName
  rw [String.toList_singleton]

theorem byteSize_nil : byteSize [] = 0 := rfl

theorem byteSize_cons (c : Char) (w : List Char) : byteSize (c :: w) = c.utf8Size + byteSize w := by
  unfold byteSize
  rw [String.ofList_cons, String.utf8ByteSize_append, String.utf8ByteSize_singleton]

theorem byteSize_append (u v : List Char) : byteSize (u ++ v) = byteSize u + byteSize v := by
  unfold byteSize
  rw [String.ofList_append, String.utf8ByteSize_append]

/-- A bracket at fault stays so behind another item. -/
theorem Faulty.cons {u v : List Char} {p : Press} {f : Fault} (h : Item u p) (hv : Faulty v f) :
    ∃ g, Faulty (u ++ v) g := by
  cases hv with
  | unterminated hu ht =>
    have hf := Faulty.unterminated (Written.cons h hu) ht
    rw [List.append_assoc] at hf
    exact ⟨_, hf⟩
  | @unknownName _ _ t _ hu hw hn =>
    have hf := Faulty.unknownName (v := t) (Written.cons h hu) hw hn
    rw [List.append_assoc, List.append_assoc] at hf
    rw [List.append_assoc]
    exact ⟨_, hf⟩

end ModalInput.Notation
