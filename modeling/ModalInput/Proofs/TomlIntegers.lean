import ModalInput.Toml.Document

/-!
# Integers of a document

Every integer of a document has 64 bits, in whatever arrays and tables it stands: the reader of
integers gives no others, the readers of values only put values together, and tables under
construction hold the values that were put into them.

    parse s = some t → ∀ e ∈ t, e.2.InRange      (inRange_of_parse)
-/

namespace ModalInput.Toml

/-! ## Ranges -/

inductive Value.InRange : Value → Prop
  | string (s : String) : InRange (.string s)
  | integer {n : Int} (h : inRange n = true) : InRange (.integer n)
  | real (r : Real) : InRange (.real r)
  | boolean (b : Bool) : InRange (.boolean b)
  | dateTime (d : DateTime) : InRange (.dateTime d)
  | array {items : List Value} (h : ∀ v ∈ items, InRange v) : InRange (.array items)
  | table {entries : Table} (h : ∀ e ∈ entries, InRange e.2) : InRange (.table entries)

inductive Node.InRange : Node → Prop
  | value {v : Value} (h : v.InRange) : InRange (.value v)
  | table (origin : Origin) {entries : List (String × Node)} (h : ∀ e ∈ entries, InRange e.2) :
    InRange (.table origin entries)
  | tables {items : List (List (String × Node))}
    (h : ∀ entries ∈ items, ∀ e ∈ entries, InRange e.2) : InRange (.tables items)

def Section.InRange (t : Section) : Prop := ∀ e ∈ t.entries, e.2.InRange

def Line.InRange : Line → Prop
  | .pair _ _ v => v.InRange
  | _ => True

/-! ## What readers give -/

namespace Reader

variable {α β : Type}

/-- Whatever the reader takes has the property. -/
def Gives (r : Reader α) (P : α → Prop) : Prop := ∀ cs a rest, r cs = some (a, rest) → P a

variable {r r' : Reader α} {P : α → Prop} {Q : β → Prop}

theorem gives_true : Gives r fun _ => True := fun _ _ _ _ => trivial

theorem gives_pure {a : α} (h : P a) : Gives (pure a) P := by
  intro cs b rest hb
  cases hb
  exact h

theorem gives_failure : Gives (failure : Reader α) P := by
  intro cs a rest h
  cases h

theorem gives_bind {f : α → Reader β} (hr : r.Gives P) (hf : ∀ a, P a → (f a).Gives Q) :
    (r >>= f).Gives Q := by
  intro cs b rest h
  obtain ⟨⟨a, mid⟩, ha, hb⟩ := Option.bind_eq_some_iff.1 h
  exact hf a (hr cs a mid ha) mid b rest hb

/-- What was taken before does not matter. -/
theorem gives_then {f : α → Reader β} (hf : ∀ a, (f a).Gives Q) : (r >>= f).Gives Q :=
  gives_bind gives_true fun a _ => hf a

theorem gives_orElse (hr : r.Gives P) (hr' : r'.Gives P) : (r <|> r').Gives P := by
  intro cs a rest h
  have h : (r cs <|> r' cs) = some (a, rest) := h
  cases hcs : r cs with
  | some taken =>
    rw [hcs] at h
    cases h
    exact hr cs a rest hcs
  | none =>
    rw [hcs] at h
    exact hr' cs a rest h

theorem gives_atMost (hr : r.Gives P) (limit : List Char) :
    (atMost r limit).Gives fun as => ∀ a ∈ as, P a := by
  induction limit with
  | nil =>
    intro cs as rest h
    cases h
    exact List.forall_mem_nil P
  | cons _ limit ih =>
    intro cs as rest h
    unfold atMost at h
    cases hcs : r cs with
    | none =>
      rw [hcs] at h
      cases h
      exact List.forall_mem_nil P
    | some taken =>
      obtain ⟨a, mid⟩ := taken
      rw [hcs] at h
      obtain ⟨⟨as', rest'⟩, hmore, heq⟩ := Option.map_eq_some_iff.1 h
      cases heq
      exact List.forall_mem_cons.2 ⟨hr cs a mid hcs, ih mid as' _ hmore⟩

theorem gives_many (hr : r.Gives P) : (many r).Gives fun as => ∀ a ∈ as, P a :=
  fun cs => gives_atMost hr cs cs

theorem gives_sepBy {separator : Reader Unit} (hr : r.Gives P) :
    (sepBy separator r).Gives fun as => ∀ a ∈ as, P a := by
  refine gives_orElse ?_ (gives_pure (List.forall_mem_nil P))
  refine gives_bind hr fun a ha => gives_bind (gives_many (gives_then fun _ => hr)) fun as has => ?_
  exact gives_pure (List.forall_mem_cons.2 ⟨ha, has⟩)

theorem of_run {s : String} {a : α} (hr : r.Gives P) (h : r.run s = some a) : P a := by
  unfold run at h
  split at h
  · rename_i heq
    cases h
    exact hr _ _ _ heq
  · cases h

end Reader

open Reader

/-! ## Tables under construction -/

/-- A fold that may fail keeps what each of its steps keeps. -/
theorem foldlM_preserves {α β : Type} {f : β → α → Option β} {I : β → Prop} {P : α → Prop}
    (hstep : ∀ b a b', I b → P a → f b a = some b' → I b') (as : List α) (b b' : β) (hb : I b)
    (has : ∀ a ∈ as, P a) (h : as.foldlM f b = some b') : I b' := by
  induction as generalizing b with
  | nil =>
    cases h
    exact hb
  | cons a as ih =>
    rw [List.foldlM_cons] at h
    obtain ⟨mid, hmid, hrest⟩ := Option.bind_eq_some_iff.1 h
    obtain ⟨ha, has⟩ := List.forall_mem_cons.1 has
    exact ih mid (hstep b a mid hb ha hmid) has hrest

theorem mem_of_lookup {β : Type} {entries : List (String × β)} {k : String} {b : β}
    (h : entries.lookup k = some b) : (k, b) ∈ entries := by
  obtain ⟨before, after, rfl, -⟩ := List.lookup_eq_some_iff.1 h
  exact List.mem_append_right before List.mem_cons_self

namespace Section

theorem inRange_root : root.InRange := List.forall_mem_nil _

theorem inRange_lookup {t : Section} {k : String} {n : Node} (ht : t.InRange)
    (h : t.entries.lookup k = some n) : n.InRange :=
  ht (k, n) (mem_of_lookup h)

theorem inRange_put {t : Section} {n : Node} (ht : t.InRange) (k : String) (hn : n.InRange) :
    (t.put k n).InRange := by
  unfold put
  split
  · intro e he
    obtain ⟨e', he', rfl⟩ := List.mem_map.1 he
    split
    · exact hn
    · exact ht e' he'
  · intro e he
    rcases List.mem_append.1 he with he | he
    · exact ht e he
    · cases List.mem_singleton.1 he
      exact hn

/-- What a change keeps of a table, the same change keeps further inside. -/
theorem inRange_within {via : Origin} {change : Section → Option Section}
    (hchange : ∀ t u : Section, t.InRange → change t = some u → u.InRange) (path : List String)
    (t u : Section) (ht : t.InRange) (h : within via change path t = some u) : u.InRange := by
  induction path generalizing t u with
  | nil => exact hchange t u ht h
  | cons k path ih =>
    have hput {via' : Origin} {entries : List (String × Node)} {f : Section → Node}
        (hentries : ∀ e ∈ entries, e.2.InRange) (hf : ∀ v : Section, v.InRange → (f v).InRange)
        (h : ((within via change path ⟨via', entries⟩).map f).bind (fun n => some (t.put k n)) =
          some u) : u.InRange := by
      obtain ⟨n, hn, heq⟩ := Option.bind_eq_some_iff.1 h
      obtain ⟨v, hv, rfl⟩ := Option.map_eq_some_iff.1 hn
      cases heq
      exact inRange_put ht k (hf v (ih ⟨via', entries⟩ v hentries hv))
    unfold within at h
    dsimp only at h
    split at h
    · exact hput (List.forall_mem_nil _) (fun v hv => .table _ hv) h
    · cases h
    · rename_i origin entries hlookup
      split at h
      · cases h
      · cases inRange_lookup ht hlookup with
        | table _ hentries => exact hput hentries (fun v hv => .table _ hv) h
    · rename_i items hlookup
      split at h
      · cases h
      · rename_i last hlast
        cases inRange_lookup ht hlookup with
        | tables hitems =>
          refine hput (hitems last (List.mem_of_getLast? hlast)) (fun v hv => .tables ?_) h
          have hinit : ∀ entries ∈ items.dropLast, ∀ e ∈ entries, e.2.InRange :=
            fun entries hmem => hitems entries (List.dropLast_subset items hmem)
          exact List.forall_mem_append.2 ⟨hinit, List.forall_mem_singleton.2 hv⟩

theorem inRange_insert {t u : Section} {path : List String} {k : String} {v : Value}
    (ht : t.InRange) (hv : v.InRange) (h : t.insert path k v = some u) : u.InRange := by
  refine inRange_within ?_ path t u ht h
  intro t u ht h
  split at h
  · cases h
  · split at h
    · cases h
    · cases h
      exact inRange_put ht k (.value hv)

theorem inRange_declareTable {t u : Section} {path : List String} {k : String} (ht : t.InRange)
    (h : t.declareTable path k = some u) : u.InRange := by
  refine inRange_within ?_ path t u ht h
  intro t u ht h
  split at h
  · cases h
    exact inRange_put ht k (.table _ (List.forall_mem_nil _))
  · rename_i entries hlookup
    cases h
    cases inRange_lookup ht hlookup with
    | table _ hentries => exact inRange_put ht k (.table _ hentries)
  · cases h

theorem inRange_appendTable {t u : Section} {path : List String} {k : String} (ht : t.InRange)
    (h : t.appendTable path k = some u) : u.InRange := by
  refine inRange_within ?_ path t u ht h
  intro t u ht h
  split at h
  · cases h
    refine inRange_put ht k (.tables ?_)
    exact List.forall_mem_singleton.2 (List.forall_mem_nil _)
  · rename_i items hlookup
    cases h
    cases inRange_lookup ht hlookup with
    | tables hitems =>
      refine inRange_put ht k (.tables (List.forall_mem_append.2 ⟨hitems, ?_⟩))
      exact List.forall_mem_singleton.2 (List.forall_mem_nil _)
  · cases h

end Section

/-! ## Finished tables -/

theorem Node.entryValues_eq (entries : List (String × Node)) :
    entryValues entries = entries.map fun e => (e.1, e.2.toValue) := by
  induction entries with
  | nil => rfl
  | cons e entries ih =>
    obtain ⟨k, n⟩ := e
    rw [entryValues, ih, List.map_cons]

theorem Node.tableValues_eq (items : List (List (String × Node))) :
    tableValues items = items.map fun entries => .table (entryValues entries) := by
  induction items with
  | nil => rfl
  | cons entries items ih => rw [tableValues, ih, List.map_cons]

theorem Node.inRange_toValue {n : Node} (h : n.InRange) : n.toValue.InRange := by
  induction h with
  | value h =>
    rw [toValue]
    exact h
  | table origin h ih =>
    rw [toValue, entryValues_eq]
    refine .table fun e he => ?_
    obtain ⟨e', he', rfl⟩ := List.mem_map.1 he
    exact ih e' he'
  | tables h ih =>
    rw [toValue, tableValues_eq]
    refine .array fun v hv => ?_
    obtain ⟨entries, hentries, rfl⟩ := List.mem_map.1 hv
    rw [entryValues_eq]
    refine .table fun e he => ?_
    obtain ⟨e', he', rfl⟩ := List.mem_map.1 he
    exact ih entries hentries e' he'

theorem Section.inRange_toTable {t : Section} (h : t.InRange) : ∀ e ∈ t.toTable, e.2.InRange := by
  unfold toTable
  rw [Node.entryValues_eq]
  intro e he
  obtain ⟨e', he', rfl⟩ := List.mem_map.1 he
  exact Node.inRange_toValue (h e' he')

/-! ## Values -/

theorem gives_ranged (n : Int) : (ranged n).Gives fun n => inRange n = true := by
  unfold ranged
  split
  · exact gives_pure ‹_›
  · exact gives_failure

theorem gives_integer : integer.Gives fun n => inRange n = true := by
  have hbased (mark : String) (base : Nat) (isDigit : Char → Bool) :
      (basedInteger mark base isDigit).Gives fun n => inRange n = true :=
    gives_then fun _ => gives_then fun _ => gives_ranged _
  have hdecimal : decimalInteger.Gives fun n => inRange n = true :=
    gives_then fun _ => gives_then fun _ => gives_ranged _
  exact gives_orElse (hbased _ _ _)
    (gives_orElse (hbased _ _ _) (gives_orElse (hbased _ _ _) hdecimal))

theorem gives_scalar : scalar.Gives Value.InRange := by
  refine gives_orElse (gives_then fun s => gives_pure (.string s)) ?_
  refine gives_orElse (gives_then fun b => gives_pure (.boolean b)) ?_
  refine gives_orElse (gives_then fun d => gives_pure (.dateTime d)) ?_
  refine gives_orElse (gives_then fun r => gives_pure (.real r)) ?_
  exact gives_bind gives_integer fun n hn => gives_pure (.integer hn)

section
variable {item : Reader Value}

theorem gives_array (hitem : item.Gives Value.InRange) : (array item).Gives Value.InRange := by
  have hentry : (do gap; let v ← item; gap; pure v : Reader Value).Gives Value.InRange :=
    gives_then fun _ => gives_bind hitem fun v hv => gives_then fun _ => gives_pure hv
  refine gives_then fun _ => gives_bind (gives_sepBy hentry) fun items hitems => ?_
  have hclose : (do gap; char ']'; pure (.array items) : Reader Value).Gives Value.InRange :=
    gives_then fun _ => gives_then fun _ => gives_pure (.array hitems)
  dsimp only
  split
  · exact gives_then fun _ => hclose
  · exact hclose

theorem gives_pair (hitem : item.Gives Value.InRange) :
    (pair item).Gives fun p => p.2.2.InRange :=
  gives_then fun _ => gives_then fun _ => gives_then fun _ =>
    gives_bind hitem fun _ hv => gives_pure hv

theorem gives_inlineTable (hitem : item.Gives Value.InRange) :
    (inlineTable item).Gives Value.InRange := by
  have hentry : (do let p ← pair item; blanks; pure p : Reader _).Gives fun p => p.2.2.InRange :=
    gives_bind (gives_pair hitem) fun p hp => gives_then fun _ => gives_pure hp
  refine gives_then fun _ => gives_bind (gives_sepBy hentry) fun pairs hpairs => ?_
  refine gives_then fun _ => gives_then fun _ => ?_
  split
  · rename_i t ht
    refine gives_pure (.table (Section.inRange_toTable ?_))
    refine foldlM_preserves ?_ pairs Section.root t Section.inRange_root hpairs ht
    exact fun t p u ht hp h => Section.inRange_insert ht hp h
  · exact gives_failure

end

theorem gives_value (depth : Nat) : (value depth).Gives Value.InRange := by
  induction depth with
  | zero => exact gives_scalar
  | succ depth ih =>
    exact gives_orElse gives_scalar (gives_orElse (gives_array ih) (gives_inlineTable ih))

/-! ## Documents -/

theorem gives_line : line.Gives Line.InRange := by
  have hempty : emptyLine.Gives Line.InRange := gives_then fun _ => gives_pure trivial
  have hheader : header.Gives Line.InRange :=
    gives_then fun _ => gives_then fun (path, k) => gives_then fun _ => gives_then fun _ =>
      gives_pure trivial
  have harray : arrayHeader.Gives Line.InRange :=
    gives_then fun _ => gives_then fun (path, k) => gives_then fun _ => gives_then fun _ =>
      gives_pure trivial
  have hpair : pairLine.Gives Line.InRange :=
    gives_bind (gives_pair (gives_value maxDepth)) fun (_, _, _) hv => gives_then fun _ =>
      gives_pure hv
  exact gives_then fun _ =>
    gives_orElse hempty (gives_orElse harray (gives_orElse hheader hpair))

theorem gives_document : document.Gives fun lines => ∀ l ∈ lines, l.InRange :=
  gives_then fun _ => gives_bind (gives_many gives_line) fun _ hlines => gives_then fun _ =>
    gives_then fun _ => gives_pure hlines

theorem Assembly.inRange_add (a : Assembly) (l : Line) (b : Assembly) (ha : a.root.InRange)
    (hl : l.InRange) (h : a.add l = some b) : b.root.InRange := by
  cases l with
  | empty =>
    cases h
    exact ha
  | table path k =>
    obtain ⟨t, ht, rfl⟩ := Option.map_eq_some_iff.1 h
    exact Section.inRange_declareTable ha ht
  | arrayTable path k =>
    obtain ⟨t, ht, rfl⟩ := Option.map_eq_some_iff.1 h
    exact Section.inRange_appendTable ha ht
  | pair path k v =>
    obtain ⟨t, ht, rfl⟩ := Option.map_eq_some_iff.1 h
    exact Section.inRange_within (fun t u ht h => Section.inRange_insert ht hl h) a.here _ t ha ht

theorem inRange_of_parse {s : String} {t : Table} (h : parse s = some t) :
    ∀ e ∈ t, e.2.InRange := by
  obtain ⟨lines, hlines, hassemble⟩ := Option.bind_eq_some_iff.1 h
  obtain ⟨a, ha, rfl⟩ := Option.map_eq_some_iff.1 hassemble
  have hread : ∀ l ∈ lines, l.InRange := of_run gives_document hlines
  have hroot : a.root.InRange :=
    foldlM_preserves Assembly.inRange_add lines ⟨.root, []⟩ a Section.inRange_root hread ha
  exact Section.inRange_toTable hroot

end ModalInput.Toml
