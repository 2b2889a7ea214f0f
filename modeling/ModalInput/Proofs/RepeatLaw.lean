import ModalInput.Proofs.Run

/-!
# The repeat law of Normal mode

The commands of one key, as a table of what one execution calls: under a count some are executed
that many times and the others once.  `G` and `gg` read the count as a line instead.

    row? k = some r → s.Gives (digits ++ [k]) (r.calls count) (s.state.ended r.target)
                                                               (gives_counted_command)
-/

namespace ModalInput

/-! ## The table -/

structure Row where
  /-- The calls of one execution. -/
  block : List (Call Span)
  /-- A count repeats the block. -/
  counted : Bool
  /-- The mode that the command leads to. -/
  target : Mode

/-- The commands of Normal mode that a count repeats or leaves alone. -/
def row? (k : Char) : Option Row :=
  match k with
  | 'h' => some ⟨[.type (.plain .left)], true, .normal⟩
  | 'j' => some ⟨[.type (.plain .down)], true, .normal⟩
  | 'k' => some ⟨[.type (.plain .up)], true, .normal⟩
  | 'l' => some ⟨[.type (.plain .right)], true, .normal⟩
  | 'b' => some ⟨[.type (.control .left)], true, .normal⟩
  | 'w' => some ⟨[.type (.control .right)], true, .normal⟩
  | '\x7b' => some ⟨[.type (.control .up)], true, .normal⟩
  | '\x7d' => some ⟨[.type (.control .down), .type (.plain .right)], true, .normal⟩
  | 'p' => some ⟨[.perform .paste], true, .normal⟩
  | 'u' => some ⟨[.perform .undo], true, .normal⟩
  | 'r' => some ⟨[.perform .redo], true, .normal⟩
  | 'J' =>
    some ⟨[.type (.plain .end), .type (.plain .delete), .type (.plain .space)], true, .normal⟩
  | 'x' => some ⟨[.type (.plain .delete)], true, .normal⟩
  | 'X' => some ⟨[.type (.plain .backspace)], true, .normal⟩
  | 'o' => some ⟨[.type (.plain .end), .type (.shift .enter)], true, .insert⟩
  | 'O' =>
    some ⟨[.type (.plain .home), .type (.shift .enter), .type (.plain .up)], true, .insert⟩
  | 'a' => some ⟨[.type (.plain .right)], false, .insert⟩
  | 'i' => some ⟨[], false, .insert⟩
  | '^' => some ⟨[.type (.plain .home)], false, .normal⟩
  | '_' => some ⟨[.type (.plain .home)], false, .normal⟩
  | '0' => some ⟨[.type (.plain .home)], false, .normal⟩
  | '$' => some ⟨[.type (.plain .end)], false, .normal⟩
  | 'I' => some ⟨[.type (.plain .home)], false, .insert⟩
  | 'A' => some ⟨[.type (.plain .end)], false, .insert⟩
  | 'v' => some ⟨[.type (.shift .right)], false, .visual⟩
  | 'V' => some ⟨[.type (.plain .home), .type (.shift .down)], false, .visualLine⟩
  | 'D' => some ⟨[.type (.shift .end), .perform .cut], false, .normal⟩
  | 'C' => some ⟨[.type (.shift .end), .perform .cut], false, .insert⟩
  | 'n' => some ⟨[.type (.plain .enter)], false, .normal⟩
  | 'N' => some ⟨[.type (.shift .enter)], false, .normal⟩
  | '/' => some ⟨[.type (.control (.letter 'f'))], false, .search⟩
  | _ => none

def Row.calls (r : Row) (count : Nat) : List (Call Span) :=
  if r.counted then (List.replicate count r.block).flatten else r.block

/-- What a typed count comes to, and one where none is typed. -/
def repeatCount (limit : Nat) (w : List Char) : Nat :=
  if w = [] then 1 else min (Text.value w) limit

/-- From the start of the document down to a line. -/
def lineCalls (line : Nat) : List (Call Span) :=
  .type (.control .home) :: List.replicate (line - 1) (.type (.plain .down))

/-! ## The table and the commands -/

theorem Row.exists_command (k : Char) (r : Row) (h : row? k = some r) :
    ∃ cmd, NormalEntry.ofChar? k = some (.command cmd) ∧
      (∀ n counted, cmd.calls n counted ++ cmd.opening = r.calls n) ∧
      cmd.target .normal = r.target := by
  unfold row? at h
  split at h
  case h_32 => cases h
  all_goals
    cases h
    refine ⟨_, rfl, fun n counted => ?_, rfl⟩
    simp [Command.calls, Command.repeats, Command.block, Command.opening, Row.calls, times, typed,
      Motion.chords, Direction.keyCap, InsertPoint.chords]

theorem Row.isDigit_eq (k : Char) (r : Row) (h : row? k = some r) :
    k.isDigit = false ∨ k = '0' := by
  unfold row? at h
  split at h
  case h_21 => exact Or.inr rfl
  case h_32 => cases h
  all_goals exact Or.inl rfl

theorem typed_toLine (n : Nat) : (typed (Gesture.toLine n) : List (Call Span)) = lineCalls n := by
  unfold typed Gesture.toLine lineCalls
  rw [List.map_append, List.map_replicate]
  rfl

theorem calls_toLine (n : Nat) (counted : Bool) :
    (Command.calls .toLine n counted : List (Call Span)) ++ Command.opening .toLine =
      if counted then lineCalls n else [.type (.control .end)] := by
  cases counted with
  | true => rw [if_pos rfl, ← typed_toLine]; exact List.append_nil _
  | false => rfl

/-! ## Counts before a command -/

theorem count_eq_repeatCount (p : Pending) (limit : Nat) (w : List Char)
    (hp : p.digits = kept limit w) (hw : IsCount w)
    (hl : w = [] ∨ Text.value w ≤ limit ∨ ∃ e, limit = 10 ^ e) :
    p.count limit = repeatCount limit w := by
  unfold repeatCount
  by_cases he : w = []
  · rw [if_pos he]
    exact Pending.count_nil p limit (by rw [hp, he]; exact List.take_nil)
  · rw [if_neg he]
    exact Pending.count_of_kept p limit w hp hw he (hl.resolve_left he)

namespace Session

variable {s : Session} {ps : List Press} {w : List Char}

/-- The command of one key under a count. -/
theorem gives_command (hs : s.state.AtRest) (hu : s.surface.unavailable = [])
    (ht : List.Forall₂ Press.Types ps w) (hw : IsCount w) (q : Press) (k : Char) (hq : q.Types k)
    (cmd : Command) (hc : NormalEntry.ofChar? k = some (.command cmd))
    (hk : k.isDigit = false ∨ w = [] ∧ k = '0')
    (hl : w = [] ∨ Text.value w ≤ s.config.keys.countLimit ∨
      ∃ e, s.config.keys.countLimit = 10 ^ e) :
    s.Gives (ps ++ [q])
      (cmd.calls (repeatCount s.config.keys.countLimit w) (!w.isEmpty) ++ cmd.opening)
      (s.state.ended (cmd.target .normal)) := by
  obtain ⟨selection, hg⟩ := (gives_digits hs hu ht hw).char hu hs.1 q k hq
  have ha : (⟨kept s.config.keys.countLimit w, none, none⟩ : Pending).accepts k = false := by
    rcases hk with hk | ⟨rfl, rfl⟩
    · exact Pending.accepts_eq_false_of_not_isDigit _ k hk
    · unfold kept
      rw [List.take_nil]
      rfl
  have hcount : (!(kept s.config.keys.countLimit w).isEmpty) = !w.isEmpty := by
    rw [Bool.eq_iff_iff]
    simp [kept_eq_nil_iff]
  rw [Edit.calls_normalChar_command _ _ k cmd ha rfl hc,
    Edit.state_normalChar_command _ _ k cmd ha rfl hc, count_eq_repeatCount _ _ w rfl hw hl,
    List.nil_append] at hg
  unfold Pending.hasCount at hg
  rw [hcount] at hg
  unfold State.ended
  rw [← hs.2.2]
  have hm : s.state.mode = .normal := hs.1
  rw [← hm]
  exact hg

/-- A count on either side of the first `g`. -/
theorem gives_go {ps₁ ps₂ : List Press} {w₁ w₂ : List Char} (hs : s.state.AtRest)
    (hu : s.surface.unavailable = []) (ht₁ : List.Forall₂ Press.Types ps₁ w₁)
    (ht₂ : List.Forall₂ Press.Types ps₂ w₂) (hw : IsCount (w₁ ++ w₂)) (g₁ g₂ : Press)
    (h₁ : g₁.Types 'g') (h₂ : g₂.Types 'g')
    (hl : w₁ ++ w₂ = [] ∨ Text.value (w₁ ++ w₂) ≤ s.config.keys.countLimit ∨
      ∃ e, s.config.keys.countLimit = 10 ^ e) :
    s.Gives (ps₁ ++ [g₁] ++ ps₂ ++ [g₂])
      (lineCalls (repeatCount s.config.keys.countLimit (w₁ ++ w₂))) (s.state.ended .normal) := by
  have hlead := gives_leader hs hu ht₁ ht₂ hw g₁ 'g' .go h₁ rfl rfl
  obtain ⟨selection, hg⟩ := hlead.char hu hs.1 g₂ 'g' h₂
  have ha := Pending.accepts_eq_false_of_not_isDigit
    ⟨kept s.config.keys.countLimit (w₁ ++ w₂), some .go, none⟩ 'g' rfl
  rw [Edit.calls_normalChar_sequence _ _ 'g' .go ha rfl (by exact hs.mode_ne_visualLine),
    Edit.state_normalChar_sequence _ _ 'g' .go ha rfl, Leader.callsFor, if_pos rfl,
    Edit.state_sequence_of_not_operator _ _ _ _ _ (fun op e => by cases e),
    count_eq_repeatCount _ _ (w₁ ++ w₂) rfl hw hl, typed_toLine, List.nil_append] at hg
  unfold State.ended
  rw [← hs.2.2, ← show s.state.mode = .normal from hs.1]
  exact hg

/-! ## The law -/

/-- **The repeat law.**  A count `w` before a command of the table repeats the block of the command
or changes nothing, according to the table; before `G`, and on either side of the first `g` of
`gg`, it is a line. -/
theorem gives_counted_command (s : Session) (hs : s.state.AtRest)
    (hu : s.surface.unavailable = []) (w : List Char) (ps : List Press) (hw : IsCount w)
    (ht : List.Forall₂ Press.Types ps w)
    (hl : w = [] ∨ Text.value w ≤ s.config.keys.countLimit ∨
      ∃ e, s.config.keys.countLimit = 10 ^ e) :
    (∀ k r q, row? k = some r → q.Types k → (k = '0' → w = []) →
      s.Gives (ps ++ [q]) (r.calls (repeatCount s.config.keys.countLimit w))
        (s.state.ended r.target)) ∧
    (∀ q, q.Types 'G' →
      s.Gives (ps ++ [q])
        (if w = [] then [.type (.control .end)]
          else lineCalls (repeatCount s.config.keys.countLimit w))
        (s.state.ended .normal)) ∧
    (∀ w₁ w₂ ps₁ ps₂ g₁ g₂, w₁ ++ w₂ = w → List.Forall₂ Press.Types ps₁ w₁ →
      List.Forall₂ Press.Types ps₂ w₂ → g₁.Types 'g' → g₂.Types 'g' →
      s.Gives (ps₁ ++ [g₁] ++ ps₂ ++ [g₂]) (lineCalls (repeatCount s.config.keys.countLimit w))
        (s.state.ended .normal)) := by
  refine ⟨?_, ?_, ?_⟩
  · intro k r q hr hq hzero
    obtain ⟨cmd, hc, hcalls, htarget⟩ := Row.exists_command k r hr
    have hk : k.isDigit = false ∨ w = [] ∧ k = '0' := by
      rcases Row.isDigit_eq k r hr with hk | hk
      · exact Or.inl hk
      · exact Or.inr ⟨hzero hk, hk⟩
    rw [← hcalls _ (!w.isEmpty), ← htarget]
    exact gives_command hs hu ht hw q k hq cmd hc hk hl
  · intro q hq
    have hg := gives_command hs hu ht hw q 'G' hq .toLine rfl (Or.inl rfl) hl
    rw [calls_toLine] at hg
    by_cases he : w = []
    · rw [if_neg (by rw [he]; decide)] at hg
      rw [if_pos he]
      exact hg
    · rw [if_pos (by simpa using he)] at hg
      rw [if_neg he]
      exact hg
  · rintro w₁ w₂ ps₁ ps₂ g₁ g₂ rfl ht₁ ht₂ h₁ h₂
    exact gives_go hs hu ht₁ ht₂ hw g₁ g₂ h₁ h₂ hl

/-- Out of Insert mode for one command, `25x` under a limit of ten deletes ten characters and goes
back. -/
theorem gives_counted_command_clamped :
    let s : Session := ⟨⟨.default, ⟨'o', 10⟩⟩, { State.initial with oneShot := true }, .new⟩
    s.state.AtRest ∧ s.surface.unavailable = [] ∧ IsCount ['2', '5'] ∧
      List.Forall₂ Press.Types [.ofChar '2', .ofChar '5'] ['2', '5'] ∧
      (∃ e, s.config.keys.countLimit = 10 ^ e) ∧
      s.Gives [.ofChar '2', .ofChar '5', .ofChar 'x'] (List.replicate 10 (.type (.plain .delete)))
        { s.state with mode := .insert, oneShot := false } := by
  intro s
  have hs : s.state.AtRest := ⟨rfl, rfl, rfl⟩
  have hw : IsCount ['2', '5'] := by decide
  have ht : List.Forall₂ Press.Types [.ofChar '2', .ofChar '5'] ['2', '5'] :=
    .cons (types_ofChar '2') (.cons (types_ofChar '5') .nil)
  have hl : ∃ e, s.config.keys.countLimit = 10 ^ e := ⟨1, rfl⟩
  have hlaw := gives_counted_command s hs rfl ['2', '5'] _ hw ht (Or.inr (Or.inr hl))
  exact ⟨hs, rfl, hw, ht, hl, hlaw.1 'x' _ (.ofChar 'x') rfl (types_ofChar 'x') (by decide)⟩

end Session

end ModalInput
