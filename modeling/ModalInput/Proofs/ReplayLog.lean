import ModalInput.Proofs.Effects
import ModalInput.Proofs.Indicator
import ModalInput.Proofs.Notation
import ModalInput.Proofs.ReplayLines
import ModalInput.Proofs.SettingsRoutes

/-!
# What a replay writes

A replay drains its recording after every press.  The interpreter never looks at what is drained,
so the items that are written are those of one run whose recording is kept: for each press the
press itself if it passes, the calls that it adds, and the announcements that it adds.

    s.Emptied t → s.Logged ps (itemsFrom t ps)                               (logged_itemsFrom)
    s.Logged ps is →
      (s.pressAll ps).surface.calls = s.surface.calls ++ is.filterMap Item.call?
                                                                             (Logged.calls_eq)
-/

namespace ModalInput

/-! ## Definitions -/

namespace Replay

def Item.call? : Item → Option (Call Span)
  | .call c => some c
  | .pass _ | .status _ => none

def Item.status? : Item → Option Status
  | .status s => some s
  | .pass _ | .call _ => none

/-- What is written of one press that adds these calls and announcements. -/
def entry (d : Disposition) (p : Press) (cs : List (Call Span)) (as : List Status) : List Item :=
  (if d = .pass then [.pass p] else []) ++ cs.map .call ++ as.map .status

/-- The items that a format writes. -/
def Format.shown (f : Format) (is : List Item) : List Item :=
  is.filter fun i => f.status || !i.isStatus

/-! ## Entries -/

section
variable (d : Disposition) (p : Press) (r : Recording) (cs : List (Call Span)) (as : List Status)

theorem passed_append_recorded :
    passed d p ++ recorded r = entry d p r.calls r.statuses := by
  unfold recorded entry
  rw [List.append_assoc]
  cases d <;> rfl

theorem filterMap_call?_entry : (entry d p cs as).filterMap Item.call? = cs := by
  have hpass : (if d = .pass then [Item.pass p] else []).filterMap Item.call? = [] := by
    split <;> rfl
  have hcalls : (cs.map Item.call).filterMap Item.call? = cs := by
    rw [List.filterMap_map]
    exact List.filterMap_some
  have hstatuses : (as.map Item.status).filterMap Item.call? = [] := by
    rw [List.filterMap_map]
    exact List.filterMap_eq_nil_iff.2 fun _ _ => rfl
  unfold entry
  rw [List.filterMap_append, List.filterMap_append, hpass, hcalls, hstatuses, List.nil_append,
    List.append_nil]

theorem filterMap_status?_entry : (entry d p cs as).filterMap Item.status? = as := by
  have hpass : (if d = .pass then [Item.pass p] else []).filterMap Item.status? = [] := by
    split <;> rfl
  have hcalls : (cs.map Item.call).filterMap Item.status? = [] := by
    rw [List.filterMap_map]
    exact List.filterMap_eq_nil_iff.2 fun _ _ => rfl
  have hstatuses : (as.map Item.status).filterMap Item.status? = as := by
    rw [List.filterMap_map]
    exact List.filterMap_some
  unfold entry
  rw [List.filterMap_append, List.filterMap_append, hpass, hcalls, hstatuses, List.append_nil,
    List.nil_append]

end

end Replay

namespace Session

open Replay

/-- A new session whose indicator has been told the state. -/
def started (c : Config) : Session := (new c .new).step .start

/-- The items of presses on a session that keeps all that is recorded: for each press the entry of
what it adds to the recording. -/
inductive Logged : Session → List Press → List Item → Prop
  | nil (s : Session) : Logged s [] []
  | press {s : Session} {p : Press} {ps : List Press} {cs : List (Call Span)} {as : List Status}
      {is : List Item} (hc : (s.step (.press p)).surface.calls = s.surface.calls ++ cs)
      (ha : (s.step (.press p)).surface.statuses = s.surface.statuses ++ as)
      (h : Logged (s.step (.press p)) ps is) :
      Logged s (p :: ps) (entry (s.disposition p) p cs as ++ is)

/-- The second session is the first one with nothing in its recording. -/
structure Emptied (s t : Session) : Prop extends s.Agrees t where
  calls_eq : t.surface.calls = []
  statuses_eq : t.surface.statuses = []

/-! ## Draining -/

theorem emptied_drain (s : Session) : s.Emptied s.drain := ⟨⟨rfl, rfl, rfl, rfl⟩, rfl, rfl⟩

namespace Emptied

variable {s t : Session}

theorem disposition_eq (h : s.Emptied t) (p : Press) : s.disposition p = t.disposition p := by
  unfold disposition
  rw [h.config_eq, h.state_eq]

/-- What is recorded of a press does not depend on what was recorded before it. -/
theorem calls_step (h : s.Emptied t) (p : Press) :
    (s.step (.press p)).surface.calls = s.surface.calls ++ (t.step (.press p)).surface.calls := by
  rw [Session.calls_step s p, Session.calls_step t p, h.calls_eq, h.context_eq, h.state_eq,
    h.unavailable_eq, List.nil_append]

theorem statuses_step (h : s.Emptied t) (p : Press) :
    (s.step (.press p)).surface.statuses =
      s.surface.statuses ++ (t.step (.press p)).surface.statuses := by
  rw [Session.statuses_step s (.press p), Session.statuses_step t (.press p), h.statuses_eq,
    h.context_eq, h.state_eq, List.nil_append]

theorem step (h : s.Emptied t) (p : Press) :
    (s.step (.press p)).Emptied (t.step (.press p)).drain := by
  have hstep : (s.step (.press p)).Agrees (t.step (.press p)) := h.toAgrees.step p
  exact ⟨⟨hstep.config_eq, hstep.state_eq, hstep.selection_eq, hstep.unavailable_eq⟩, rfl, rfl⟩

end Emptied

theorem logged_itemsFrom {s t : Session} (h : s.Emptied t) (ps : List Press) :
    s.Logged ps (itemsFrom t ps) := by
  induction ps generalizing s t with
  | nil => exact .nil s
  | cons p ps ih =>
    have hlog := Logged.press (h.calls_step p) (h.statuses_step p) (ih (h.step p))
    rw [h.disposition_eq p, ← passed_append_recorded] at hlog
    exact hlog

/-! ## What is written of a run -/

namespace Logged

variable {s : Session} {ps : List Press} {is : List Item}

/-- Nothing that a run calls is lost, repeated or moved. -/
theorem calls_eq (h : s.Logged ps is) :
    (s.pressAll ps).surface.calls = s.surface.calls ++ is.filterMap Item.call? := by
  induction h with
  | nil s => exact (List.append_nil _).symm
  | @press s p ps cs as is hc ha h ih =>
    show ((s.step (.press p)).pressAll ps).surface.calls = _
    rw [ih, hc, List.filterMap_append, filterMap_call?_entry, List.append_assoc]

theorem statuses_eq (h : s.Logged ps is) :
    (s.pressAll ps).surface.statuses = s.surface.statuses ++ is.filterMap Item.status? := by
  induction h with
  | nil s => exact (List.append_nil _).symm
  | @press s p ps cs as is hc ha h ih =>
    show ((s.step (.press p)).pressAll ps).surface.statuses = _
    rw [ih, ha, List.filterMap_append, filterMap_status?_entry, List.append_assoc]

end Logged

end Session

/-! ## The output -/

namespace Replay

open Session

/-- Whatever a format leaves out, it writes the presses and the calls in their order. -/
theorem filter_shown (f : Format) (is : List Item) :
    ((f.shown is).filter fun i => !i.isStatus) = is.filter fun i => !i.isStatus := by
  unfold Format.shown
  rw [List.filter_filter]
  congr 1
  funext i
  cases i.isStatus <;> simp

theorem shown_eq (f : Format) (is : List Item) :
    f.shown is = if f.status then is else is.filter fun i => !i.isStatus := by
  unfold Format.shown
  cases f.status with
  | true => exact List.filter_eq_self.2 fun _ _ => rfl
  | false => rfl

/-- What is printed is the lines of the items that are shown. -/
theorem exists_run_of_written (c : Config) (f : Format) (keys : String) (ps : List Press)
    (h : Notation.Written keys.toList ps) :
    ∃ out, run c f keys = .ok out ∧
      Lines f.json (f.shown (.status (started c).status :: itemsFrom (started c).drain ps))
        out := by
  refine ⟨_, ?_, (lines_iff f _ _).2 rfl⟩
  unfold run
  rw [(Notation.parse_eq_ok_iff keys ps).2 h]
  rfl

theorem run_of_faulty (c : Config) (f : Format) (keys : String) (e : Notation.Fault)
    (h : Notation.Faulty keys.toList e) : run c f keys = .error e := by
  unfold run
  rw [(Notation.parse_eq_error_iff keys e).2 h]

end Replay

namespace CommandLine

open Replay Session

/-- Arguments that ask for a replay of any keys, in any format. -/
def replayArguments (keys : String) (f : Format) : List String :=
  "replay" :: (if f.json then ["--json"] else []) ++ (if f.status then ["--status"] else []) ++
    ["--", keys]

theorem parse_replayArguments (keys : String) (f : Format) :
    parse (replayArguments keys f) = .run none (.replay keys f) := by
  obtain ⟨json, status⟩ := f
  cases json <;> cases status <;> rfl

theorem exists_result_of_written (c : Config) (f : Format) (keys : String) (ps : List Press)
    (h : Notation.Written keys.toList ps) :
    ∃ out, (Job.replay keys f).result c = (0, out) ∧
      Lines f.json (f.shown (.status (started c).status :: itemsFrom (started c).drain ps))
        out := by
  obtain ⟨out, hrun, hlines⟩ := exists_run_of_written c f keys ps h
  have hjob : runJob c (.replay keys f) = (Replay.run c f keys).mapError Notation.Fault.message :=
    rfl
  refine ⟨out, ?_, hlines⟩
  unfold Job.result
  rw [hjob, hrun]
  rfl

theorem result_of_faulty (c : Config) (f : Format) (keys : String) (e : Notation.Fault)
    (h : Notation.Faulty keys.toList e) : (Job.replay keys f).result c = (1, "") := by
  have hjob : runJob c (.replay keys f) = (Replay.run c f keys).mapError Notation.Fault.message :=
    rfl
  unfold Job.result
  rw [hjob, run_of_faulty c f keys e h]
  rfl

/-- A replay writes what happens, in each format and under all settings.  Keys with a fault write
nothing, however much of them is in order, and the replay fails.  Of all other keys the items are
the announcement at the start and the log of one run whose recording is kept: its calls are all the
calls, and its announcements are all the announcements.  Each format writes the lines of these same
items in their order; without announcements it still writes those of all the presses and calls.
From the lines in JSON the items can be told. -/
theorem replay_faithful (c : Config) (keys : String) :
    (∀ f, ∃ args, parse args = .run none (.replay keys f)) ∧
    (∀ args named file ignored f, parse args = .run named (.replay keys f) →
      settings named file = .ok (c, ignored) →
      ((parse args).outcome file).result = (Job.replay keys f).result c) ∧
    (∀ e, Notation.Faulty keys.toList e → ∀ f, (Job.replay keys f).result c = (1, "")) ∧
    ((∀ e, ¬ Notation.Faulty keys.toList e) →
      ∃ ps is, Notation.Written keys.toList ps ∧ (started c).Logged ps is ∧
        let all := Item.status (started c).status :: is
        all.filterMap Item.call? = ((started c).pressAll ps).surface.calls ∧
        all.filterMap Item.status? = ((started c).pressAll ps).surface.statuses ∧
        ∀ f : Format, ∃ out,
          (Job.replay keys f).result c = (0, out) ∧
          Lines f.json (f.shown all) out ∧
          (f.json = true → ∀ js, Lines true js out → js = f.shown all) ∧
          f.shown all = (if f.status then all else all.filter fun i => !i.isStatus) ∧
          ((f.shown all).filter fun i => !i.isStatus) = all.filter fun i => !i.isStatus) := by
  refine ⟨fun f => ⟨_, parse_replayArguments keys f⟩, ?_, ?_, ?_⟩
  · intro args named file ignored f ha hs
    rw [ha]
    exact result_of_settings named _ file c ignored hs
  · intro e he f
    exact result_of_faulty c f keys e he
  · intro hf
    obtain ⟨ps, hw⟩ : ∃ ps, Notation.Written keys.toList ps := by
      rcases Notation.written_or_faulty keys.toList with hw | ⟨e, he⟩
      · exact hw
      · exact absurd he (hf e)
    have hlog := logged_itemsFrom (emptied_drain (started c)) ps
    refine ⟨ps, _, hw, hlog, hlog.calls_eq.symm, hlog.statuses_eq.symm, fun f => ?_⟩
    obtain ⟨out, hresult, hlines⟩ := exists_result_of_written c f keys ps hw
    refine ⟨out, hresult, hlines, fun hj js hjs => ?_, shown_eq f _, filter_shown f _⟩
    rw [hj] at hlines
    exact lines_json_inj hjs hlines

/-- A deletion and then a quote in Insert mode, in text with announcements and in JSON without.  A
fault behind them leaves nothing. -/
theorem replay_faithful_inserted :
    let start := Item.status (started .default).status
    let ps := [Press.ofChar 'x', .ofChar 'i', .ofChar '"']
    let text := "-- NORMAL --\nemit delete\n-- NORMAL --\n-- INSERT --\n-- INSERT --\npass \"\n"
    let json := "\x7b\"call\":\"emit\",\"key\":\"delete\"," ++
      "\"mods\":\x7b\"shift\":false,\"control\":false\x7d\x7d\n" ++
      "\x7b\"pass\":\x7b\"alt\":false,\"ctrl\":false,\"key\":\"\\\"\"," ++
      "\"meta\":false,\"shift\":false\x7d\x7d\n"
    settings none .missing = .ok (.default, []) ∧
      ((parse ["replay", "--status", "xi\"<"]).outcome .missing).result = (1, "") ∧
      ((parse ["replay", "--status", "xi\""]).outcome .missing).result = (0, text) ∧
      ((parse ["replay", "--json", "xi\""]).outcome .missing).result = (0, json) ∧
      ∃ is, (started .default).Logged ps is ∧ Lines false (start :: is) text ∧
        ∀ js, Lines true js json → js = (start :: is).filter fun i => !i.isStatus := by
  intro start ps text json
  have hs : settings none .missing = .ok (.default, []) := rfl
  have htext : ((parse ["replay", "--status", "xi\""]).outcome .missing).result = (0, text) := by
    decide +kernel
  have hjson : ((parse ["replay", "--json", "xi\""]).outcome .missing).result = (0, json) := by
    decide +kernel
  have hfault : Notation.Faulty "xi\"<".toList (.unterminated 3) :=
    (Notation.parse_eq_error_iff _ _).1 (by decide)
  have hok : Notation.parse "xi\"" = .ok ps := by decide
  have hno : ∀ e, ¬ Notation.Faulty "xi\"".toList e := by
    intro e he
    have herror := (Notation.parse_eq_error_iff _ _).2 he
    rw [hok] at herror
    cases herror
  obtain ⟨-, hbad, hfaulty, -⟩ := replay_faithful .default "xi\"<"
  obtain ⟨-, hgood, -, hwritten⟩ := replay_faithful .default "xi\""
  obtain ⟨qs, is, hw, hlog, -, -, hout⟩ := hwritten hno
  have hqs : Except.ok qs = Except.ok ps := ((Notation.parse_eq_ok_iff _ _).2 hw).symm.trans hok
  cases hqs
  refine ⟨hs, ?_, htext, hjson, is, hlog, ?_, fun js hjs => ?_⟩
  · rw [hbad ["replay", "--status", "xi\"<"] none .missing [] ⟨false, true⟩ rfl hs]
    exact hfaulty _ hfault _
  · obtain ⟨out, hresult, hlines, -, hall, -⟩ := hout ⟨false, true⟩
    rw [hgood ["replay", "--status", "xi\""] none .missing [] ⟨false, true⟩ rfl hs, hresult] at htext
    cases htext
    rw [hall] at hlines
    exact hlines
  · obtain ⟨out, hresult, -, hread, hall, -⟩ := hout ⟨true, false⟩
    rw [hgood ["replay", "--json", "xi\""] none .missing [] ⟨true, false⟩ rfl hs, hresult] at hjson
    cases hjson
    rw [hall] at hread
    exact hread rfl js hjs

end CommandLine

end ModalInput
