import ModalInput.CommandLine.Outcome

/-!
# Where the settings of a run come from

A run reads its settings from a file that it names or from the one in the home directory.  Either
way the file counts as a whole: it gives settings, and both runs go by them; or it does not, and
one run fails and the other goes by the defaults.

    Config.load file = .ok c ↔ file = .missing ∧ c = .default ∨ GivenBy file c (load_eq_ok_iff)
    parse ("replay" :: rest) = .run none j →
      parse ("--config" :: path :: "replay" :: rest) = .run (some path) j      (parse_config)
-/

namespace ModalInput

/-! ## Files -/

namespace Config

/-- The whole file is a text that gives the settings. -/
def GivenBy (file : FileResult) (c : Config) : Prop :=
  ∃ s : String, file = .content s.toUTF8 ∧ parse? s = some c

theorem fromUTF8?_eq_some_iff (bytes : ByteArray) (s : String) :
    String.fromUTF8? bytes = some s ↔ s.toUTF8 = bytes := by
  show (if h : bytes.IsValidUTF8 then some (String.fromUTF8 bytes h) else none) = some s ↔ _
  constructor
  · intro h
    split at h
    · cases h
      rfl
    · cases h
  · rintro rfl
    have hvalid : s.toUTF8.IsValidUTF8 := s.isValidUTF8
    rw [dif_pos hvalid]
    rfl

theorem load_content (bytes : ByteArray) (c : Config) :
    load (.content bytes) = .ok c ↔
      ∃ s, String.fromUTF8? bytes = some s ∧ parse? s = some c := by
  unfold load
  cases hs : String.fromUTF8? bytes with
  | none => simp [hs]
  | some s => cases hc : parse? s <;> simp [hs, hc]

/-- Only a missing file and a file that is good as a whole are loaded. -/
theorem load_eq_ok_iff (file : FileResult) (c : Config) :
    load file = .ok c ↔ file = .missing ∧ c = .default ∨ GivenBy file c := by
  unfold GivenBy
  cases file with
  | missing =>
    constructor
    · intro h
      cases h
      exact Or.inl ⟨rfl, rfl⟩
    · rintro (⟨-, rfl⟩ | ⟨s, h, -⟩)
      · rfl
      · cases h
  | failed f =>
    constructor
    · intro h
      cases h
    · rintro (⟨h, -⟩ | ⟨s, h, -⟩) <;> cases h
  | content bytes =>
    rw [load_content]
    constructor
    · rintro ⟨s, hs, hc⟩
      exact Or.inr ⟨s, by rw [(fromUTF8?_eq_some_iff bytes s).1 hs], hc⟩
    · rintro (⟨h, -⟩ | ⟨s, h, hc⟩)
      · cases h
      · cases h
        exact ⟨s, (fromUTF8?_eq_some_iff s.toUTF8 s).2 rfl, hc⟩

/-- A file that does not give settings as a whole does not give any. -/
theorem load_of_not_givenBy (bytes : ByteArray) (h : ∀ c, ¬ GivenBy (.content bytes) c) :
    ∃ e, load (.content bytes) = .error e := by
  cases hl : load (.content bytes) with
  | error e => exact ⟨e, rfl⟩
  | ok c =>
    rcases (load_eq_ok_iff _ c).1 hl with ⟨hm, -⟩ | hg
    · cases hm
    · exact absurd hg (h c)

/-- An empty file gives the defaults. -/
theorem givenBy_empty : GivenBy (.content .empty) .default := ⟨"", rfl, by rfl⟩

end Config

/-! ## Results -/

namespace CommandLine

/-- What is seen of an outcome from outside, remarks apart: the exit code and the output. -/
def Outcome.result (o : Outcome) : Nat × String := (o.exitCode, o.output)

/-- The result of a job under settings. -/
def Job.result (c : Config) (j : Job) : Nat × String :=
  match runJob c j with
  | .ok output => (0, output)
  | .error _ => (1, "")

theorem result_of_settings (named : Option String) (j : Job) (file : FileResult) (c : Config)
    (ignored : List LoadError) (h : settings named file = .ok (c, ignored)) :
    ((Request.run named j).outcome file).result = j.result c := by
  show (run named j file).result = j.result c
  unfold run Job.result
  simp only [h]
  cases runJob c j <;> rfl

/-- A file that is good gives its settings to both kinds of runs. -/
theorem result_of_load (named : Option String) (j : Job) (file : FileResult) (c : Config)
    (h : Config.load file = .ok c) :
    ((Request.run named j).outcome file).result = j.result c := by
  refine result_of_settings named j file c [] ?_
  unfold settings
  cases named with
  | some path =>
    rw [h]
    rfl
  | none =>
    unfold Config.loadOrDefault
    rw [h]

/-- A file that is named has to be good. -/
theorem result_named_of_error (path : String) (j : Job) (file : FileResult) (e : LoadError)
    (h : Config.load file = .error e) :
    ((Request.run (some path) j).outcome file).result = (1, "") := by
  show (run (some path) j file).result = (1, "")
  unfold run settings
  rw [h]
  rfl

/-- The file in the home directory gives way. -/
theorem result_home_of_error (j : Job) (file : FileResult) (e : LoadError)
    (h : Config.load file = .error e) :
    ((Request.run none j).outcome file).result = j.result .default :=
  result_of_settings none j file .default [e] (by unfold settings Config.loadOrDefault; rw [h])

/-! ## Arguments behind a command -/

/-- Whatever was named before the command, it makes no difference to how the reading goes on: it
stops with the same request, which is no run, or the command has been given the same. -/
def GoesOn (v : Verb) (x : Option String → Except Request Reading) : Prop :=
  (∃ r, (∀ named j, r ≠ .run named j) ∧ ∀ outer, x outer = .error r) ∨
    ∃ g e, ∀ outer, x outer = .ok (.command v outer g e)

section
variable (v : Verb) (g : Given) (e : Expecting)

theorem goesOn_usage : GoesOn v fun _ => .error .usage :=
  Or.inl ⟨.usage, (fun _ _ h => by cases h), fun _ => rfl⟩

theorem goesOn_help (t : Topic) : GoesOn v fun _ => .error (.help t) :=
  Or.inl ⟨.help t, (fun _ _ h => by cases h), fun _ => rfl⟩

theorem goesOn_ok : GoesOn v fun outer => .ok (.command v outer g e) :=
  Or.inr ⟨g, e, fun _ => rfl⟩

theorem goesOn_takeValue (before : Option String) (s : String) (f : Option String → Given) :
    GoesOn v fun outer =>
      (takeValue before s).map fun s => .command v outer (f s) .anything := by
  unfold takeValue
  split
  · exact goesOn_usage v
  · exact goesOn_ok v _ _

theorem goesOn_takeKeys (s : String) :
    GoesOn v fun outer => (takeKeys v g s).map fun g => .command v outer g e := by
  unfold takeKeys
  split
  · exact goesOn_ok v _ _
  · exact goesOn_usage v

theorem goesOn_commandOption (a : Argument) : GoesOn v fun outer => commandOption v outer g a := by
  unfold commandOption
  split
  · exact goesOn_help v _
  · exact goesOn_help v _
  · split
    · exact goesOn_usage v
    · exact goesOn_ok v _ _
  · split
    · exact goesOn_usage v
    · exact goesOn_ok v _ _
  · exact goesOn_ok v _ _
  · exact goesOn_takeValue v _ _ _
  · exact goesOn_ok v _ _
  · exact goesOn_takeKeys v g _ _
  · exact goesOn_usage v

theorem goesOn_next (arg : String) :
    GoesOn v fun outer => (Reading.command v outer g e).next arg := by
  unfold Reading.next
  cases e with
  | value =>
    show GoesOn v fun outer => (takeArgument g.settings (.ofString arg)).map fun s =>
      .command v outer { g with settings := s } .anything
    unfold takeArgument
    split
    · exact goesOn_takeValue v _ _ _
    · exact goesOn_usage v
  | keys => exact goesOn_takeKeys v g _ _
  | anything => exact goesOn_commandOption v g _

theorem goesOn_foldlM (args : List String) :
    GoesOn v fun outer => args.foldlM Reading.next (.command v outer g e) := by
  induction args generalizing g e with
  | nil => exact goesOn_ok v g e
  | cons arg args ih =>
    rcases goesOn_next v g e arg with ⟨r, hr, hstop⟩ | ⟨g', e', hgo⟩
    · refine Or.inl ⟨r, hr, fun outer => ?_⟩
      have hnext : (Reading.command v outer g e).next arg = .error r := hstop outer
      show (arg :: args).foldlM Reading.next (.command v outer g e) = .error r
      rw [List.foldlM_cons, hnext]
      rfl
    · have hrest : (fun outer => (arg :: args).foldlM Reading.next (.command v outer g e)) =
          fun outer => args.foldlM Reading.next (.command v outer g' e') := by
        funext outer
        have hnext : (Reading.command v outer g e).next arg = .ok (.command v outer g' e') :=
          hgo outer
        rw [List.foldlM_cons, hnext]
        rfl
      rw [hrest]
      exact ih g' e'

end

/-- A file that is named behind the command wins over one that is named before it. -/
theorem finish_command (v : Verb) (g : Given) (e : Expecting) (outer inner : Option String)
    (j : Job) (h : (Reading.command v none g e).finish = .run inner j) :
    (Reading.command v outer g e).finish = .run (inner.or outer) j := by
  unfold Reading.finish at h ⊢
  cases e with
  | value => cases h
  | anything | keys =>
    cases v with
    | live =>
      cases h
      rw [Option.or_none]
    | replay =>
      cases hk : g.keys with
      | none =>
        simp only [hk] at h
        cases h
      | some keys =>
        simp only [hk] at h ⊢
        cases h
        rw [Option.or_none]

theorem parse_config (path : String) (rest : List String) (inner : Option String) (j : Job)
    (hp : Argument.ofString path = .plain path) (hne : path ≠ "")
    (h : parse ("replay" :: rest) = .run inner j) :
    parse ("--config" :: path :: "replay" :: rest) = .run (inner.or (some path)) j := by
  have hreplay (outer : Option String) :
      (Reading.program outer .anything).next "replay" =
        .ok (.command .replay outer .nothing .anything) := rfl
  have hpath : (Reading.program none .value).next path = .ok (.program (some path) .anything) := by
    show (takeArgument none (.ofString path)).map (fun s => Reading.program s .anything) = _
    rw [hp]
    show (takeValue none path).map (fun s => Reading.program s .anything) = _
    unfold takeValue
    rw [if_neg (by simp [hne])]
    rfl
  have hhome : ("replay" :: rest).foldlM Reading.next .start =
      rest.foldlM Reading.next (.command .replay none .nothing .anything) := rfl
  have hnamed : ("--config" :: path :: "replay" :: rest).foldlM Reading.next .start =
      rest.foldlM Reading.next (.command .replay (some path) .nothing .anything) := by
    have hconfig : Reading.start.next "--config" = .ok (.program none .value) := rfl
    rw [List.foldlM_cons, hconfig]
    show (path :: "replay" :: rest).foldlM Reading.next (.program none .value) = _
    rw [List.foldlM_cons, hpath]
    show ("replay" :: rest).foldlM Reading.next (.program (some path) .anything) = _
    rw [List.foldlM_cons, hreplay]
    rfl
  unfold parse at h ⊢
  rw [hhome] at h
  rw [hnamed]
  rcases goesOn_foldlM .replay .nothing .anything rest with ⟨r, hr, hstop⟩ | ⟨g, e, hgo⟩
  · have hr' : rest.foldlM Reading.next (.command .replay none .nothing .anything) = .error r :=
      hstop none
    rw [hr'] at h
    exact absurd h (hr inner j)
  · have hnone : rest.foldlM Reading.next (.command .replay none .nothing .anything) =
        .ok (.command .replay none g e) := hgo none
    have hsome : rest.foldlM Reading.next (.command .replay (some path) .nothing .anything) =
        .ok (.command .replay (some path) g e) := hgo (some path)
    rw [hnone] at h
    rw [hsome]
    exact finish_command .replay g e (some path) inner j h

/-! ## The two routes -/

/-- The two routes agree.  Arguments that name a file of their own make the same run either way.
Otherwise a file that is good as a whole gives the same result whether it is named or in the home
directory.  One that is not makes the run that names it fail without output, and leaves the other
what it is without any file.  A missing file and an empty one are as good as none.  And every run
fails in this way or goes by the defaults or by the settings of the whole file. -/
theorem routes_agree (path : String) (rest : List String) (inner : Option String) (j : Job)
    (hp : Argument.ofString path = .plain path) (hne : path ≠ "")
    (h : parse ("replay" :: rest) = .run inner j) :
    let named := parse ("--config" :: path :: "replay" :: rest)
    let home := parse ("replay" :: rest)
    let bare := (home.outcome .missing).result
    (∀ other, inner = some other → named = home) ∧
    (inner = none →
      named = .run (some path) j ∧ home = .run none j ∧
      (∀ file c, Config.GivenBy file c →
        (named.outcome file).result = (home.outcome file).result ∧
        (home.outcome file).result = j.result c) ∧
      (∀ bytes, (∀ c, ¬ Config.GivenBy (.content bytes) c) →
        (named.outcome (.content bytes)).result = (1, "") ∧
        (home.outcome (.content bytes)).result = bare) ∧
      (∀ r, r = named ∨ r = home →
        (r.outcome .missing).result = bare ∧ (r.outcome (.content .empty)).result = bare) ∧
      ∀ file r, r = named ∨ r = home →
        (r.outcome file).result = (1, "") ∨
        ∃ c, (c = .default ∨ Config.GivenBy file c) ∧ (r.outcome file).result = j.result c) := by
  intro named home bare
  have hnamed : named = .run (inner.or (some path)) j := parse_config path rest inner j hp hne h
  have hhome : home = .run inner j := h
  constructor
  · rintro other rfl
    rw [hnamed, hhome]
    rfl
  · rintro rfl
    have hroute : ∀ r, r = named ∨ r = home → ∃ o, r = .run o j := by
      rintro r (rfl | rfl)
      · exact ⟨some path, hnamed⟩
      · exact ⟨none, hhome⟩
    have hload : ∀ r file c, r = named ∨ r = home → Config.load file = .ok c →
        (r.outcome file).result = j.result c := by
      intro r file c hr hl
      obtain ⟨o, rfl⟩ := hroute r hr
      exact result_of_load o j file c hl
    have hbare : bare = j.result .default := hload home .missing .default (Or.inr rfl) rfl
    refine ⟨hnamed, hhome, ?_, ?_, ?_, ?_⟩
    · intro file c hg
      have hl : Config.load file = .ok c := (Config.load_eq_ok_iff file c).2 (Or.inr hg)
      rw [hload named file c (Or.inl rfl) hl, hload home file c (Or.inr rfl) hl]
      exact ⟨rfl, rfl⟩
    · intro bytes hg
      obtain ⟨e, he⟩ := Config.load_of_not_givenBy bytes hg
      rw [hbare, hnamed, hhome]
      exact ⟨result_named_of_error path j _ e he, result_home_of_error j _ e he⟩
    · intro r hr
      have hempty : Config.load (.content .empty) = .ok .default :=
        (Config.load_eq_ok_iff _ _).2 (Or.inr Config.givenBy_empty)
      rw [hbare]
      exact ⟨hload r _ _ hr rfl, hload r _ _ hr hempty⟩
    · intro file r hr
      cases hl : Config.load file with
      | ok c =>
        have hc : c = .default ∨ Config.GivenBy file c :=
          ((Config.load_eq_ok_iff file c).1 hl).imp And.right id
        exact Or.inr ⟨c, hc, hload r file c hr hl⟩
      | error e =>
        rcases hr with rfl | rfl
        · rw [hnamed]
          exact Or.inl (result_named_of_error path j file e hl)
        · rw [hhome]
          exact Or.inr ⟨.default, Or.inl rfl, result_home_of_error j file e hl⟩

theorem routes_agree_limit :
    let j := Job.replay "5x" ⟨false, false⟩
    let named := parse ["--config", "c.toml", "replay", "5x"]
    let home := parse ["replay", "5x"]
    let good := FileResult.content "keys.count_limit=3".toUTF8
    let bad := FileResult.content "[keys".toUTF8
    Argument.ofString "c.toml" = .plain "c.toml" ∧ home = .run none j ∧
      (named.outcome good).result = (home.outcome good).result ∧
      (home.outcome good).result = j.result ⟨.default, ⟨'o', 3⟩⟩ ∧
      (named.outcome bad).result = (1, "") ∧
      (home.outcome bad).result = (home.outcome .missing).result := by
  intro j named home good bad
  have hpath : Argument.ofString "c.toml" = .plain "c.toml" := by decide
  have hhome : home = .run none j := rfl
  have hgood : Config.GivenBy good ⟨.default, ⟨'o', 3⟩⟩ := ⟨_, rfl, by decide +kernel⟩
  have hbad : ∀ c, ¬ Config.GivenBy bad c := by
    rintro c ⟨s, hs, hc⟩
    have htext : "[keys" = s := String.toByteArray_inj.1 (FileResult.content.inj hs)
    have hnone : Config.parse? "[keys" = none := by decide +kernel
    rw [← htext, hnone] at hc
    cases hc
  obtain ⟨-, hroutes⟩ := routes_agree "c.toml" ["5x"] none j hpath (by decide) hhome
  obtain ⟨-, -, hwhole, hrest, -, -⟩ := hroutes rfl
  exact ⟨hpath, hhome, (hwhole good _ hgood).1, (hwhole good _ hgood).2, (hrest _ hbad).1,
    (hrest _ hbad).2⟩

end CommandLine

end ModalInput
