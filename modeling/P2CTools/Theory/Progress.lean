import P2CTools.Source.Cli
import P2CTools.Theory.Accounting
import P2CTools.Wire.Pacing
import Mathlib.Data.Rat.Floor

/-!
# What Is Shown of a Search

The lines that the progress printer writes while a search goes on.

The search reports after every round, and the printer drops most of it: it
remembers when it last wrote, and is quiet for a second. So the lines are
spaced, however fast the attempts complete and however the clock behaves. What
it drops is never old, since every call finds a line of the last second or
writes one.

A run of the search calls the printer once for each of its reports, in order,
and does what the call says: it goes on if that returned, and ends with what was
raised if it did not. What is shown is therefore a part of what was reported. A
line shows the best work of the attempts looked at before it, so it never shows
a larger one than an earlier line.

## Main definitions

* `Terminal.line`: What one call writes.
* `Terminal.lines`: What the calls for some reports write.
* `LineNoWorse`: The later line does not show a larger work.
* `Called`: The calls of the printer, and what became of them.
* `ShowsBest`: A line shows the best work of what was before it.

## Theorems

* `lines_spaced`: The lines are spaced.
* `lines_recent`: No call leaves an old line.
* `progress_shown`: What is shown in a run.
-/

namespace P2CTools

open Wire
open Tls13 (Endpoint)

section Printer

/-- What a call writes, with its reading of the clock. -/
def Terminal.line (T : Terminal) (k : Nat) (progress : GenerationProgress) :
    List (ℚ × ProgressLine) :=
  ((T.printer k).call (T.clock k) progress).2.toList.map fun line => (T.clock k, line)

/-- What the calls for some reports write, from the first call on. -/
def Terminal.lines (T : Terminal) (reports : List GenerationProgress) : List (ℚ × ProgressLine) :=
  reports.zipIdx.flatMap fun report => T.line report.2 report.1

variable (T : Terminal)

theorem lines_concat (reports : List GenerationProgress) (progress : GenerationProgress) :
    T.lines (reports ++ [progress]) = T.lines reports ++ T.line reports.length progress := by
  rw [Terminal.lines, List.zipIdx_append, List.flatMap_append]
  simp [Terminal.lines]

/-- Within a second of the last line nothing is written. -/
theorem line_quiet {k : Nat} (progress : GenerationProgress)
    (h : T.clock k - (T.printer k).lastUpdate < 1) :
    T.line k progress = [] ∧ (T.printer (k + 1)).lastUpdate = (T.printer k).lastUpdate := by
  rw [Terminal.line, ProgressPrinter.call, if_pos h, Terminal.printer, if_pos h]
  exact ⟨rfl, rfl⟩

theorem line_written {k : Nat} (progress : GenerationProgress)
    (h : ¬T.clock k - (T.printer k).lastUpdate < 1) :
    T.line k progress = [(T.clock k, progressLine progress)] ∧
      (T.printer (k + 1)).lastUpdate = T.clock k := by
  rw [Terminal.line, ProgressPrinter.call, if_neg h, Terminal.printer, if_neg h]
  exact ⟨rfl, rfl⟩

/-- The lines are a second apart, and none is behind what the printer
    remembers. -/
theorem lines_spaced (reports : List GenerationProgress) :
    Spaced 1 ((T.lines reports).map Prod.fst) ∧
      ∀ time ∈ (T.lines reports).map Prod.fst, time ≤ (T.printer reports.length).lastUpdate := by
  induction reports using List.reverseRecOn with
  | nil => exact ⟨Spaced.nil 1, fun time h => absurd h List.not_mem_nil⟩
  | append_singleton reports progress ih =>
      rcases ih with ⟨hspaced, hlast⟩
      rw [lines_concat, List.length_append, List.length_singleton, List.map_append]
      by_cases hquiet : T.clock reports.length - (T.printer reports.length).lastUpdate < 1
      · rcases line_quiet T progress hquiet with ⟨hline, hkept⟩
        rw [hline, hkept, List.map_nil, List.append_nil]
        exact ⟨hspaced, hlast⟩
      · rcases line_written T progress hquiet with ⟨hline, hkept⟩
        rw [hline, hkept, List.map_singleton]
        -- What the printer remembers is a second ago.
        have hbehind : ∀ time ∈ (T.lines reports).map Prod.fst,
            time + 1 ≤ T.clock reports.length := by
          intro time htime
          have hle := hlast time htime
          linarith
        refine ⟨hspaced.concat hbehind, fun time htime => ?_⟩
        rcases List.mem_append.mp htime with htime | htime
        · have hlater := hbehind time htime
          linarith
        · rw [List.mem_singleton.mp htime]

/-- What the printer remembers is the time of a line, if there is one. -/
theorem lastUpdate_mem (reports : List GenerationProgress) :
    (T.printer reports.length).lastUpdate = 0 ∨
      (T.printer reports.length).lastUpdate ∈ (T.lines reports).map Prod.fst := by
  induction reports using List.reverseRecOn with
  | nil => exact Or.inl rfl
  | append_singleton reports progress ih =>
      rw [lines_concat, List.length_append, List.length_singleton, List.map_append]
      by_cases hquiet : T.clock reports.length - (T.printer reports.length).lastUpdate < 1
      · rcases line_quiet T progress hquiet with ⟨hline, hkept⟩
        rw [hline, hkept, List.map_nil, List.append_nil]
        exact ih
      · rcases line_written T progress hquiet with ⟨hline, hkept⟩
        rw [hline, hkept]
        exact Or.inr (List.mem_append_right _ List.mem_cons_self)

/-- No call leaves an old line: after it there is one of the last second,
    unless the clock has not come to a second yet. -/
theorem lines_recent (reports : List GenerationProgress) (progress : GenerationProgress) :
    T.clock reports.length < 1 ∨
      ∃ time ∈ (T.lines (reports ++ [progress])).map Prod.fst,
        T.clock reports.length < time + 1 := by
  rw [lines_concat, List.map_append]
  by_cases hquiet : T.clock reports.length - (T.printer reports.length).lastUpdate < 1
  · rcases lastUpdate_mem T reports with hzero | hmem
    · rw [hzero, sub_zero] at hquiet
      exact Or.inl hquiet
    · refine Or.inr ⟨_, List.mem_append_left _ hmem, ?_⟩
      linarith
  · rw [(line_written T progress hquiet).1]
    refine Or.inr ⟨T.clock reports.length, List.mem_append_right _ List.mem_cons_self, ?_⟩
    linarith

/-- A line shows a report, and the lines come in the order of the reports. -/
theorem lines_sublist (reports : List GenerationProgress) :
    ((T.lines reports).map Prod.snd).Sublist (reports.map progressLine) := by
  induction reports using List.reverseRecOn with
  | nil => exact List.Sublist.refl []
  | append_singleton reports progress ih =>
      rw [lines_concat, List.map_append, List.map_append]
      refine ih.append ?_
      by_cases hquiet : T.clock reports.length - (T.printer reports.length).lastUpdate < 1
      · rw [(line_quiet T progress hquiet).1]
        exact List.nil_sublist _
      · rw [(line_written T progress hquiet).1]
        exact List.Sublist.refl _

/-- Each line is what a call wrote, at its reading of the clock. -/
theorem mem_lines {T : Terminal} {reports : List GenerationProgress} {line : ℚ × ProgressLine}
    (h : line ∈ T.lines reports) :
    ∃ k report, reports[k]? = some report ∧ line = (T.clock k, progressLine report) := by
  rcases List.mem_flatMap.mp h with ⟨⟨report, k⟩, hmem, hline⟩
  refine ⟨k, report, List.mem_zipIdx_iff_getElem?.mp hmem, ?_⟩
  by_cases hquiet : T.clock k - (T.printer k).lastUpdate < 1
  · rw [(line_quiet T report hquiet).1] at hline
    exact absurd hline List.not_mem_nil
  · rw [(line_written T report hquiet).1] at hline
    exact List.mem_singleton.mp hline

end Printer

section Shown

/-- A line shows a work in its display form. -/
def ProgressLine.Shows (line : ProgressLine) (work : Bytes) : Prop :=
  internalHashToDisplay work = .ok line.best

/-- The later line does not show a larger work. -/
def LineNoWorse (earlier later : ProgressLine) : Prop :=
  ∀ work, earlier.Shows work → ∃ work', later.Shows work' ∧ leNat work' ≤ leNat work

theorem length_display {work : Bytes} {display : Str}
    (h : internalHashToDisplay work = .ok display) : display.length = 64 := by
  unfold internalHashToDisplay at h
  simp only [bind_eq_ok_iff, failIf_eq_ok_iff, exists_const, pure_eq_ok_iff, ne_eq, not_not] at h
  rw [← h.2, length_toHex, List.length_reverse, h.1]

theorem length_none : (Str.ofString "none").length ≠ 64 := by decide

/-- A line shows what its report shows: a work is not displayed as "none". -/
theorem shows_progressLine_iff (progress : GenerationProgress) (work : Bytes) :
    (progressLine progress).Shows work ↔ P2CTools.Shows progress work := by
  unfold ProgressLine.Shows P2CTools.Shows progressLine
  cases progress.bestWorkHash with
  | none =>
      constructor
      · intro h
        exact absurd (length_display h) length_none
      · intro h
        rcases h with ⟨display, -, hnone⟩
        exact absurd hnone (by simp)
  | some best =>
      by_cases hempty : best = []
      · simp only [hempty, if_true]
        constructor
        · intro h
          exact absurd (length_display h) length_none
        · intro h
          rcases h with ⟨display, hdisplay, hsome⟩
          rw [← Option.some.inj hsome] at hdisplay
          exact absurd (length_display hdisplay) (by decide)
      · simp only [hempty, if_false]
        constructor
        · intro h
          exact ⟨best, h, rfl⟩
        · intro h
          rcases h with ⟨display, hdisplay, hsome⟩
          rw [Option.some.inj hsome]
          exact hdisplay

/-- Lines of reports that get no worse get no worse. -/
theorem lineNoWorse_of_noWorse {earlier later : GenerationProgress} (h : NoWorse earlier later) :
    LineNoWorse (progressLine earlier) (progressLine later) := by
  intro work hwork
  rcases h work ((shows_progressLine_iff earlier work).mp hwork) with ⟨work', hwork', hle⟩
  exact ⟨work', (shows_progressLine_iff later work').mpr hwork', hle⟩

variable {Cert Key : Type} {w : World Cert Key} {options : GenerationOptions}
  {context : ConnectionProof} {endpoints : List Endpoint}

variable (T : Terminal)

/-- The printer was called once for each report, with the report. Each call
    returned, or it was the last one and the search has ended with what it
    raised. -/
structure Called (s : State) : Prop where
  reports : s.reports = s.reported.length
  returned : ∀ k report, s.reported[k]? = some report → T.progress k report = .ok () ∨
    (k + 1 = s.reported.length ∧ ∃ e, T.progress k report = .error e ∧ s.control = .raised e)

/-- Where the search is not over, all calls have returned. -/
theorem Called.of_eq {T : Terminal} {s s' : State} (hs : Called T s)
    (hgoing : ∀ e, s.control ≠ .raised e) (hreports : s'.reports = s.reports)
    (hreported : s'.reported = s.reported) : Called T s' := by
  refine ⟨by rw [hreports, hreported]; exact hs.reports, fun k report hk => ?_⟩
  rw [hreported] at hk
  rcases hs.returned k report hk with hok | ⟨-, e, -, hraised⟩
  · exact Or.inl hok
  · exact absurd hraised (hgoing e)

variable {T}

theorem called_step {s s' : State} (hs : Called T s)
    (hmove : Move (w.shown T) options context endpoints s s') : Called T s' := by
  -- A step that is taken is not taken from where an exception was raised.
  have hgoing : ∀ {control : Control}, s.control = control → (∀ e, control ≠ .raised e) →
      ∀ e, s.control ≠ .raised e := by
    intro control hcontrol hother e
    rw [hcontrol]
    exact hother e
  cases hmove with
  | opened h | expired h | usedUp h | slept _ h | waited _ _ h | quiet h =>
      exact hs.of_eq (hgoing h fun e => by simp) rfl rfl
  | submitted endpoint h =>
      exact hs.of_eq (hgoing h fun e => by simp) rfl (reported_afterSubmit _ _ _)
  | overflowed endpoint h =>
      have hreported : (s.afterSubmit options endpoint ((w.shown T).clock s.ticks)
          s.nextStart).reported = s.reported := reported_afterSubmit _ _ _
      exact hs.of_eq (hgoing h fun e => by simp) rfl hreported
  | won submission _ _ _ _ h | lost submission _ _ h | failed submission _ _ _ h
  | escaped submission _ _ _ h =>
      exact hs.of_eq (hgoing h fun e => by simp) rfl (reported_afterHarvest (s := s) submission)
  | reported control callback hcontrol hprogress hcall =>
      have hprinter : callback = T.progress := (Option.some.inj hprogress).symm
      have hreported : (s.afterReport (s.progressAt ((w.shown T).clock s.ticks))).reported =
          s.reported ++ [s.progressAt ((w.shown T).clock s.ticks)] := reported_afterReport _
      refine ⟨?_, fun k report hk => ?_⟩
      · change s.reports + 1 = (s.afterReport _).reported.length
        rw [hreported, List.length_append, List.length_singleton, hs.reports]
      · change (s.afterReport _).reported[k]? = some report at hk
        change _ ∨ (k + 1 = (s.afterReport _).reported.length ∧ _)
        rw [hreported] at hk ⊢
        by_cases hk' : k < s.reported.length
        · rw [List.getElem?_append_left hk'] at hk
          rcases hs.returned k report hk with hok | ⟨-, e, -, hraised⟩
          · exact Or.inl hok
          · exact absurd hraised (hgoing hcontrol (fun e => by simp) e)
        -- The new report is the one that the callback was called with.
        · have hlast : k = s.reported.length := by
            have hlt := (List.getElem?_eq_some_iff.mp hk).1
            rw [List.length_append, List.length_singleton] at hlt
            omega
          subst hlast
          rw [List.getElem?_concat_length] at hk
          rw [← Option.some.inj hk, ← hprinter, ← hs.reports]
          rcases hcall with ⟨hok, -⟩ | ⟨e, hraised, rfl⟩
          · exact Or.inl hok
          · refine Or.inr ⟨?_, e, hraised, rfl⟩
            rw [List.length_append, List.length_singleton, hs.reports]
  | ended hcontrol => exact hs

/-- A line shows how many attempts were looked at before it, and the best work
    of those, in its display form, or that there was none. -/
def ShowsBest (w : World Cert Key) (context : ConnectionProof) (before : List Event)
    (line : ProgressLine) : Prop :=
  line.attempts = (before.filterMap Event.harvest).length ∧
    ∃ search, Best (worksOf w context before) search ∧
      line.best = search.bestHash.getD (Str.ofString "none")

/-- The line of a report shows what the report does. -/
theorem Reports.showsBest {before : List Event} {report : GenerationProgress}
    (h : Reports w context before report) : ShowsBest w context before (progressLine report) := by
  rcases h with ⟨hattempts, search, hbest, hsame⟩
  refine ⟨hattempts, search, hbest, ?_⟩
  unfold progressLine
  rw [hsame]
  cases hbest with
  | none _ _ hnone => rw [hnone]; rfl
  | some work display _ _ _ hdisplay hsome =>
      -- A display form is not empty.
      have hne : display ≠ [] := by
        intro hempty
        have hlength := length_display hdisplay
        rw [hempty] at hlength
        exact absurd hlength (by decide)
      rw [hsome]
      exact if_neg hne

/-- What is shown of a search, at any moment of it. The printer was called once
    for each report, in order, and the search has done what the calls said. Each
    line is that of a report, at the reading of the clock of its call, and shows
    the best work of what was looked at before. The lines are in the order of
    the reports, and none shows a larger work than an earlier one. No two of
    them are less than a second apart, so no window of time has more lines than
    whole seconds and one; and after each call there is a line of the last
    second. -/
theorem progress_shown (w : World Cert Key) (T : Terminal) (options : GenerationOptions)
    (context : ConnectionProof) (endpoints : List Endpoint)
    (hprepare : prepare w options context = .ok endpoints) (s : State)
    (hrun : Run (Following (step (w.shown T) options context endpoints)) (start (w.shown T)) s) :
    Called T s ∧
      (∀ line ∈ T.lines s.reported, ∃ before report later,
        s.trace = before ++ Event.reported report :: later ∧
        line = (T.clock (before.filterMap Event.report).length, progressLine report) ∧
        ShowsBest (w.shown T) context before line.2) ∧
      ((T.lines s.reported).map Prod.snd).Sublist (s.reported.map progressLine) ∧
      ((T.lines s.reported).map Prod.snd).Pairwise LineNoWorse ∧
      Spaced 1 ((T.lines s.reported).map Prod.fst) ∧
      (∀ left width : ℚ, 0 ≤ width →
        ((((T.lines s.reported).map Prod.fst).filter fun time =>
          left ≤ time ∧ time < left + width).length : ℤ) ≤ ⌊width⌋ + 1) ∧
      ∀ before progress after, s.reported = before ++ progress :: after →
        T.clock before.length < 1 ∨
          ∃ time ∈ (T.lines (before ++ [progress])).map Prod.fst,
            T.clock before.length < time + 1 := by
  have hmoves : ∀ t t', Following (step (w.shown T) options context endpoints) t t' →
      Move (w.shown T) options context endpoints t t' := by
    intro t t' hfollows
    rw [hfollows]
    exact step_move (endpoints_ne_nil hprepare) t
  have hcalled : Called T s :=
    hrun.invariant (fun t t' ht hfollows => called_step ht (hmoves t t' hfollows))
      ⟨rfl, fun k report hk => absurd hk (by simp [State.reported, start])⟩
  have hstanding : Standing (w.shown T) context s :=
    hrun.invariant (fun t t' ht hfollows => standing_step ht (hmoves t t' hfollows)) standing_start
  have hspaced := (lines_spaced T s.reported).1
  have hsublist := lines_sublist T s.reported
  have himproving : (s.reported.map progressLine).Pairwise LineNoWorse :=
    List.Pairwise.map progressLine (fun _ _ => lineNoWorse_of_noWorse) hstanding.improving
  refine ⟨hcalled, fun line hline => ?_, hsublist, himproving.sublist hsublist, hspaced,
    fun left width hwidth => ?_, fun before progress _ _ => lines_recent T before progress⟩
  · rcases mem_lines hline with ⟨k, report, hk, rfl⟩
    rcases exists_split hk with ⟨before, later, hsplit, hlength⟩
    refine ⟨before, report, later, hsplit, ?_, (hstanding.shown before report later hsplit).showsBest⟩
    rw [hlength]
  · have hone : Spaced (1 / 1 : ℚ) ((T.lines s.reported).map Prod.fst) := by
      rw [div_one]
      exact hspaced
    have hwindow := hone.length_window_le one_pos left hwidth
    rw [mul_one] at hwindow
    exact hwindow

/-- A terminal whose clock is past its first second. -/
def lateTerminal : Terminal :=
  ⟨fun _ => 2, fun _ _ => .ok ()⟩

theorem late_lateTerminal : ¬lateTerminal.clock 0 - (lateTerminal.printer 0).lastUpdate < 1 := by
  change ¬(2 : ℚ) - 0 < 1
  norm_num

/-- The search whose one attempt does not meet the target has written a line
    after five steps, which shows the work of that attempt. -/
theorem sample_shown : ∃ s line work,
    s = (reportingStep lateTerminal.progress)^[5] (start (reportingWorld lateTerminal.progress)) ∧
      lateTerminal.lines s.reported = [(2, line)] ∧
      Yields (reportingWorld lateTerminal.progress) hardContext sampleSubmission work ∧
      line.Shows work ∧ line.attempts = 1 ∧ Called lateTerminal s := by
  have hreturns : ∀ report, lateTerminal.progress 0 report = .ok () := by
    intro report
    rw [Terminal.progress, ProgressPrinter.call, if_neg late_lateTerminal]
    rfl
  rcases reportingStep_trace lateTerminal.progress hreturns with ⟨report, htrace⟩
  rcases exists_reportingWork lateTerminal.progress with ⟨work, hyields, hworks⟩
  rcases progress_shown (sampleWorld (Tls13.attemptOn (Tls13.piecesOf Tls13.sessionRecords)))
    lateTerminal sampleOptions hardContext [sampleEndpoint] (prepare_sampleWorld _) _
    (run_iterate (reportingStep lateTerminal.progress) _ 5) with ⟨hcalled, hlines, -⟩
  have hreported : ((reportingStep lateTerminal.progress)^[5]
      (start (reportingWorld lateTerminal.progress))).reported = [report] := by
    rw [State.reported, htrace]
    rfl
  have hline : lateTerminal.lines [report] = [(2, progressLine report)] := by
    change lateTerminal.line 0 report ++ [] = _
    rw [(line_written lateTerminal report late_lateTerminal).1]
    rfl
  have hmem : (2, progressLine report) ∈ lateTerminal.lines ((reportingStep
      lateTerminal.progress)^[5] (start (reportingWorld lateTerminal.progress))).reported := by
    rw [hreported, hline]
    exact List.mem_cons_self
  rcases hlines _ hmem with ⟨before, report', later, hsplit, -, hattempts, other, hother, hbest⟩
  -- Before the only report the attempt was looked at.
  have hbefore : before.filterMap Event.harvest = [sampleSubmission] := by
    have hevents : [Event.started sampleSubmission 0, Event.harvested sampleSubmission] ++
        Event.reported report :: [] = before ++ Event.reported report' :: later :=
      htrace.symm.trans hsplit
    rcases before with _ | ⟨first, _ | ⟨second, _ | ⟨third, rest⟩⟩⟩
    · simp at hevents
    · simp at hevents
    · simp only [List.cons_append, List.nil_append, List.cons.injEq] at hevents
      rw [← hevents.1, ← hevents.2.1]
      rfl
    · simp at hevents
  have hother' : Best {work} other := hworks before hbefore ▸ hother
  refine ⟨_, progressLine report, work, rfl, by rw [hreported, hline], hyields, ?_, ?_, hcalled⟩
  · cases hother' with
    | none hnone => exact absurd hnone (Set.singleton_ne_empty _)
    | some best display hbestMem _ _ hdisplay hhash =>
        rw [Set.mem_singleton_iff.mp hbestMem] at hdisplay
        rw [hhash] at hbest
        rw [ProgressLine.Shows, hdisplay, hbest]
        rfl
  · rw [hattempts, hbefore]
    rfl

end Shown

end P2CTools
