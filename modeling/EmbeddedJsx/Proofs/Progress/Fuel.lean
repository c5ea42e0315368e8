import EmbeddedJsx.Proofs.Extension.Parsing
import EmbeddedJsx.Proofs.Progress.Entries
import EmbeddedJsx.Proofs.Progress.Loops

/-!
# Reading comes to an end

With fuel a text is read in so many rounds of each loop at most, and with so many elements and
fragments open at once at most (`parseFueled`).  More fuel than there are characters never runs out,
and how much more makes no difference (`parseFueled_eq`).

What is behind that is progress.  Whatever is done again is done further on in the text, be it the
next round of a loop or the beginning of another element or fragment.  The main statement,
`reading_progresses`, says both.
-/

namespace EmbeddedJsx

open Production

variable {text : String} {steps levels fuel : ℕ}

/-- What collecting leads to if parsing leads to the result. -/
def Session.Collected.Agrees : Except SyntaxError Program → Session.Collected → Prop
  | .ok program, collected => ∃ s, collected = .ok program s
  | .error error, collected => ∃ s, collected = .error (.fault error) s

/-- If more steps are allowed for loops than there are characters, it makes no difference how
many. -/
lemma collectWithin_agrees (levels : ℕ) (h : text.toList.length < steps) :
    Session.Collected.Agrees (parseWithin levels text)
      ((Session.ofText text).collectWithin steps levels) := by
  obtain ⟨nodes, error?, hcollects⟩ := exists_collects levels text
  have hmore := collects_shift (n := 0) (Nat.succ_le_of_lt h) hcollects
  have hresult := Session.collect_of_collects (s := Session.ofText text) (markup_sound steps levels)
    hmore (by simp [Session.ofText]) rfl h
  rw [Node.shiftAll_zero] at hresult
  rw [parseWithin_of_collects hcollects]
  cases error? with
  | none => exact hresult
  | some error => exact hresult

/-- The markup of a text, where no loop makes more rounds than there is fuel, and no more elements
and fragments are open at once; nothing, if that is not enough. -/
def parseFueled (fuel : ℕ) (text : String) : Option (Except SyntaxError Program) :=
  match (Session.ofText text).collectWithin fuel fuel with
  | .ok program _ => some (.ok program)
  | .error .exhausted _ => none
  | .error (.fault error) _ => if error.fault = .tooDeep then none else some (.error error)

/-- **Fuel.**  More fuel than there are characters does not run out, and the text is read as it is
without a limit. -/
lemma parseFueled_eq (h : text.toList.length < fuel) :
    parseFueled fuel text = some (parseUnlimited text) := by
  have hagrees := collectWithin_agrees fuel h
  rcases parseWithin_limited fuel text with ⟨-, hunlimited⟩ | ⟨hnests, -⟩
  · rw [hunlimited] at hagrees
    cases hresult : parseUnlimited text with
    | ok program =>
      rw [hresult] at hagrees
      obtain ⟨s, hs⟩ := hagrees
      rw [parseFueled, hs]
    | error error =>
      rw [hresult] at hagrees
      obtain ⟨s, hs⟩ := hagrees
      have hne : error.fault ≠ .tooDeep := by
        obtain ⟨fault, span⟩ := error
        rintro rfl
        exact parseUnlimited_ne_tooDeep text span hresult
      simp only [parseFueled, hs, if_neg hne]
  · -- each element and each fragment that is open has its own characters
    have hle := hnests.le_length
    omega

/-- **Progress.**  Of two successive rounds of a loop, in any construct or at the top, the second
begins further on; and so does each element and each fragment that is begun after another while the
text is read without a limit of nesting.  With more fuel than there are characters the reading comes
to an end, always with the same result, and so it does with any limit of nesting. -/
theorem reading_progresses (text : String) :
    (∀ (loop : Loop) (steps levels k : ℕ) (c d d' : Cursor), c.rest.length < steps →
      loop.run (markup steps levels) steps k c = .error .exhausted d →
      loop.run (markup steps levels) steps (k + 1) c = .error .exhausted d' →
      d.stop < d'.stop) ∧
    (∀ (steps levels k : ℕ) (s s' : Session), text.toList.length < steps →
      (Session.ofText text).collect (markup steps levels) k = .error .exhausted s →
      (Session.ofText text).collect (markup steps levels) (k + 1) = .error .exhausted s' →
      s.cursor.stop < s'.cursor.stop) ∧
    ((∃ entries, Entered text entries) ∧ ∀ entries, Entered text entries →
      entries.Pairwise fun d e => d.stop < e.stop) ∧
    ∀ fuel, text.toList.length < fuel →
      parseFueled fuel text = some (parseUnlimited text) ∧
        ∀ levels, Session.Collected.Agrees (parseWithin levels text)
          ((Session.ofText text).collectWithin fuel levels) := by
  refine ⟨fun loop steps levels k c d d' hc hd hd' => ?_,
    fun steps levels k s s' hsteps hs hs' => ?_,
    ⟨exists_entered text, fun entries h => h.pairwise⟩,
    fun fuel h => ⟨parseFueled_eq h, fun levels => collectWithin_agrees levels h⟩⟩
  · exact Loop.stop_lt (orderly_markup steps levels) hc hd hd'
  · exact Session.collect_stop_lt (orderly_markup steps levels) hsteps hs hs'

set_option maxRecDepth 1000 in
/-- The case of an element with a child, after which the text ends. -/
theorem reading_progresses_child :
    ∃ (c d d' : Cursor) (s s' : Session),
      Loop.children.run (markup 12 2) 12 0 c = .error .exhausted d ∧
      Loop.children.run (markup 12 2) 12 1 c = .error .exhausted d' ∧ d.stop < d'.stop ∧
      (Session.ofText "<a><b/></a>").collect (markup 12 2) 0 = .error .exhausted s ∧
      (Session.ofText "<a><b/></a>").collect (markup 12 2) 1 = .error .exhausted s' ∧
      s.cursor.stop < s'.cursor.stop ∧
      (∃ entries, Entered "<a><b/></a>" entries ∧
        entries.Pairwise fun d e => d.stop < e.stop) ∧
      parseFueled 12 "<a><b/></a>" = some (parseUnlimited "<a><b/></a>") := by
  obtain ⟨hrounds, htop, ⟨⟨entries, hentries⟩, hpairwise⟩, hfuel⟩ :=
    reading_progresses "<a><b/></a>"
  have hd' : Loop.children.run (markup 12 2) 12 1 ⟨some .tagClose, 2, ['>'], "<b/></a>".toList⟩ =
      .error .exhausted ⟨some .selfClose, 5, ['/', '>'], "</a>".toList⟩ := by cbv
  have hs' : (Session.ofText "<a><b/></a>").collect (markup 12 2) 1 =
      .error .exhausted ⟨⟨some .tagClose, 10, ['>'], []⟩,
        #[.element ⟨0, 11⟩ (.plain ⟨⟨1, 2⟩, "a"⟩) []
          [.selfClosed ⟨3, 7⟩ (.plain ⟨⟨4, 5⟩, "b"⟩) []]]⟩ := by cbv
  exact ⟨_, _, _, _, _, rfl, hd', hrounds .children 12 2 0 _ _ _ (by decide) rfl hd', rfl, hs',
    htop 12 2 0 _ _ (by decide) rfl hs', ⟨entries, hentries, hpairwise entries hentries⟩,
    (hfuel 12 (by decide)).1⟩

end EmbeddedJsx
