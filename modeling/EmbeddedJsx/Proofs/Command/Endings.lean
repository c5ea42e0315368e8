import Mathlib
import EmbeddedJsx.Command.Run

/-!
# How runs end

A run that carries out the given arguments goes through the same stations in every world: the
options are settled, the input is read, its text is rendered, and the rendering is delivered.  At
each of them it may end.  `World.Ends` lists the ends, each with the world that is left behind,
and `World.run_eq_iff` says that these are the ends of runs.

Only the last station changes anything but the standard error.  There the rendering may be cut short
for want of room, and what has been written of it is left behind.
-/

namespace EmbeddedJsx

open Text

namespace World

variable {a : Arguments} {w w' : World} {o : Options} {path : Path} {failure : Failure}
  {argv : List String} {e : Ending} {platform : Platform}

/-! ### What is found in a world -/

/-- The bytes of the file with settings, if there is such a file. -/
def settings? (w : World) (path : Path) : Except FileFault (Option (List UInt8)) :=
  match w.isFile path with
  | .error fault => .error fault
  | .ok false => .ok none
  | .ok true => (w.read path).map some

lemma run_isFile : ((host platform).isFile path).run w = (w.isFile path, w) := rfl

lemma run_read : ((host platform).read path).run w = (w.read path, w) := rfl

lemma run_write {text : String} :
    ((host platform).write path text).run w =
      ((w.write path (Utf8.encode text)).1,
        { w with toDisk := (w.write path (Utf8.encode text)).2 }) := rfl

lemma run_out {text : String} :
    ((host platform).out text).run w =
      if (w.stdout ++ text).length ≤ w.outlet then (true, { w with stdout := w.stdout ++ text })
      else (false, { w with stdout := w.stdout ++ w.taken text }) := by
  unfold host
  dsimp only
  rw [StateT.run_bind, StateT.run_get]
  dsimp only [bind, pure]
  by_cases hroom : (w.stdout ++ text).length ≤ w.outlet
  · simp only [hroom, ↓reduceIte]
    rfl
  · simp only [hroom, ↓reduceIte]
    rfl

lemma run_settingsBytes :
    ((host platform).settingsBytes path).run w = (w.settings? path, w) := by
  unfold Host.settingsBytes settings?
  rw [StateT.run_bind, run_isFile]
  dsimp only [bind, pure]
  cases w.isFile path with
  | error => rfl
  | ok found => cases found <;> rfl

lemma run_options_eq : ((host platform).options a).run w =
    (match w.settings? a.settingsPath with
      | .error fault => .error (.file fault)
      | .ok bytes? => a.settle platform bytes?, w) := by
  unfold Host.options
  rw [StateT.run_bind, run_settingsBytes]
  dsimp only [bind, pure]
  cases w.settings? a.settingsPath <;> rfl

lemma options_eq : w.options a =
    match w.settings? a.settingsPath with
    | .error fault => .error (.file fault)
    | .ok bytes? => a.settle w.platform bytes? :=
  congrArg Prod.fst run_options_eq

/-- Settling the options changes nothing. -/
lemma run_options : ((host w.platform).options a).run w = (w.options a, w) := by
  rw [run_options_eq, options_eq]

/-- The options are settled, and the input that they name is read. -/
structure Reads (a : Arguments) (w : World) (o : Options) (text : String) : Prop where
  /-- What is to be done. -/
  options : w.options a = .ok (.ok o)
  /-- The bytes of the input stand for the text. -/
  input : ∃ bytes, w.read o.input = .ok bytes ∧ textOfBytes bytes = .ok text

/-! ### The ends -/

/-- The world after a line has been written to the standard error. -/
def told (w : World) (line : String) : World := { w with stderr := w.stderr ++ (line ++ "\n") }

/-- The ends of a run with the given arguments, each with the world that is left behind. -/
inductive Ends (a : Arguments) (w : World) : Ending → World → Prop where
  /-- What is to be done cannot be found out. -/
  | unsettled {failure : Failure} (h : w.options a = .error failure) :
    Ends a w (.broken failure) w
  /-- There is a fault in the settings. -/
  | misconfigured {fault : Settings.Fault} (h : w.options a = .ok (.error fault)) :
    Ends a w (.exit 2) (w.told ("error: " ++ fault.message))
  /-- The name of the input is no name of a file. -/
  | misnamed {o : Options} {fault : FileFault} (h : w.options a = .ok (.ok o))
      (hread : w.read o.input = .error fault) (hnul : fault.reason = .nul) :
    Ends a w (.broken (.file fault)) w
  /-- The input cannot be opened. -/
  | unopened {o : Options} {fault : FileFault} (h : w.options a = .ok (.ok o))
      (hread : w.read o.input = .error fault) (hnul : fault.reason ≠ .nul) :
    Ends a w (.exit 2) (w.told ("error: " ++ fault.message))
  /-- The bytes of the input stand for no text. -/
  | undecoded {o : Options} {bytes : List UInt8} {fault : Utf8.Fault}
      (h : w.options a = .ok (.ok o)) (hread : w.read o.input = .ok bytes)
      (hbytes : textOfBytes bytes = .error fault) :
    Ends a w (.broken (.encoding fault)) w
  /-- The text cannot be read. -/
  | unreadable {o : Options} {text : String} {error : SyntaxError} (h : w.Reads a o text)
      (hrender : render w.platform o.shownFormat o.indent text = .error (.unreadable error)) :
    Ends a w (.exit 1) (w.told (error.report text o.input.text).block)
  /-- The record of the text cannot be laid out. -/
  | unlaid {o : Options} {text : String} {fault : LayoutFault} (h : w.Reads a o text)
      (hrender : render w.platform o.shownFormat o.indent text = .error (.layout fault)) :
    Ends a w (.broken (.layout fault)) w
  /-- The rendering is shown. -/
  | shown {o : Options} {text rendering : String} (h : w.Reads a o text)
      (hrender : render w.platform o.shownFormat o.indent text = .ok rendering)
      (houtput : o.output = none) (hroom : (w.stdout ++ rendering).length ≤ w.outlet) :
    Ends a w (.exit 0) { w with stdout := w.stdout ++ rendering }
  /-- The standard output does not take all of the rendering. -/
  | unshown {o : Options} {text rendering : String} (h : w.Reads a o text)
      (hrender : render w.platform o.shownFormat o.indent text = .ok rendering)
      (houtput : o.output = none) (hroom : ¬ (w.stdout ++ rendering).length ≤ w.outlet) :
    Ends a w (.broken .outlet) { w with stdout := w.stdout ++ w.taken rendering }
  /-- The rendering cannot be written to its file. -/
  | unwritten {o : Options} {text rendering : String} {path : Path} {fault : FileFault}
      (h : w.Reads a o text)
      (hrender : render w.platform o.shownFormat o.indent text = .ok rendering)
      (houtput : o.output = some path)
      (hwrite : (w.write path (Utf8.encode rendering)).1 = .error fault) :
    Ends a w (.broken (.file fault)) { w with toDisk := (w.write path (Utf8.encode rendering)).2 }
  /-- The rendering is written to its file. -/
  | written {o : Options} {text rendering : String} {path : Path} (h : w.Reads a o text)
      (hrender : render w.platform o.shownFormat o.indent text = .ok rendering)
      (houtput : o.output = some path)
      (hwrite : (w.write path (Utf8.encode rendering)).1 = .ok ()) :
    Ends a w (.exit 0) { w with toDisk := (w.write path (Utf8.encode rendering)).2 }

/-- There is always an end. -/
lemma exists_ends (a : Arguments) (w : World) : ∃ e w', Ends a w e w' := by
  cases h : w.options a with
  | error failure => exact ⟨_, _, .unsettled h⟩
  | ok settled =>
    cases settled with
    | error fault => exact ⟨_, _, .misconfigured h⟩
    | ok o =>
      cases hread : w.read o.input with
      | error fault =>
        by_cases hnul : fault.reason = .nul
        · exact ⟨_, _, .misnamed h hread hnul⟩
        · exact ⟨_, _, .unopened h hread hnul⟩
      | ok bytes =>
        cases hbytes : textOfBytes bytes with
        | error fault => exact ⟨_, _, .undecoded h hread hbytes⟩
        | ok text =>
          have hreads : w.Reads a o text := ⟨h, bytes, hread, hbytes⟩
          cases hrender : render w.platform o.shownFormat o.indent text with
          | error obstacle =>
            cases obstacle with
            | unreadable error => exact ⟨_, _, .unreadable hreads hrender⟩
            | layout fault => exact ⟨_, _, .unlaid hreads hrender⟩
          | ok rendering =>
            cases houtput : o.output with
            | none =>
              by_cases hroom : (w.stdout ++ rendering).length ≤ w.outlet
              · exact ⟨_, _, .shown hreads hrender houtput hroom⟩
              · exact ⟨_, _, .unshown hreads hrender houtput hroom⟩
            | some path =>
              cases hwrite : (w.write path (Utf8.encode rendering)).1 with
              | error fault => exact ⟨_, _, .unwritten hreads hrender houtput hwrite⟩
              | ok => exact ⟨_, _, .written hreads hrender houtput hwrite⟩

/-! ### Runs -/

lemma run_of_options (h : Arguments.read argv = .ok a) (ho : w.options a = .ok (.ok o)) :
    w.run argv = ((host w.platform).carryOut o).run w := by
  unfold World.run Host.run
  rw [h]
  dsimp only
  rw [StateT.run_bind, run_options, ho]
  rfl

lemma run_of_reads (h : Arguments.read argv = .ok a) {text : String} (hreads : w.Reads a o text) :
    w.run argv = ((host w.platform).process o text).run w := by
  obtain ⟨bytes, hread, hbytes⟩ := hreads.input
  rw [run_of_options h hreads.options]
  unfold Host.carryOut
  rw [StateT.run_bind, run_read, hread]
  dsimp only [bind]
  rw [hbytes]

lemma run_of_renders (h : Arguments.read argv = .ok a) {text rendering : String}
    (hreads : w.Reads a o text)
    (hrender : render w.platform o.shownFormat o.indent text = .ok rendering) :
    w.run argv = ((host w.platform).deliver o rendering).run w := by
  rw [run_of_reads h hreads, Host.process, show (host w.platform).platform = w.platform from rfl,
    hrender]

lemma run_deliver_none {rendering : String} (houtput : o.output = none) :
    ((host platform).deliver o rendering).run w =
      if (w.stdout ++ rendering).length ≤ w.outlet then
        (.exit 0, { w with stdout := w.stdout ++ rendering })
      else (.broken .outlet, { w with stdout := w.stdout ++ w.taken rendering }) := by
  unfold Host.deliver
  rw [houtput]
  dsimp only
  rw [StateT.run_bind, run_out]
  split <;> rfl

lemma run_deliver_some {rendering : String} (houtput : o.output = some path) :
    ((host platform).deliver o rendering).run w =
      (match (w.write path (Utf8.encode rendering)).1 with
        | .error fault => .broken (.file fault)
        | .ok () => .exit 0,
        { w with toDisk := (w.write path (Utf8.encode rendering)).2 }) := by
  unfold Host.deliver
  rw [houtput]
  dsimp only
  rw [StateT.run_bind, run_write]
  dsimp only [bind]
  cases (w.write path (Utf8.encode rendering)).1 <;> rfl

lemma Ends.run_eq (h : Arguments.read argv = .ok a) (hends : Ends a w e w') :
    w.run argv = (e, w') := by
  cases hends with
  | unsettled ho | misconfigured ho =>
    unfold World.run Host.run
    rw [h]
    dsimp only
    rw [StateT.run_bind, run_options, ho]
    rfl
  | misnamed ho hread hnul | unopened ho hread hnul =>
    rw [run_of_options h ho]
    unfold Host.carryOut
    rw [StateT.run_bind, run_read, hread]
    dsimp only [bind]
    simp only [hnul, ↓reduceIte]
    rfl
  | undecoded ho hread hbytes =>
    rw [run_of_options h ho]
    unfold Host.carryOut
    rw [StateT.run_bind, run_read, hread]
    dsimp only [bind]
    rw [hbytes]
    rfl
  | unreadable hreads hrender | unlaid hreads hrender =>
    rw [run_of_reads h hreads, Host.process, show (host w.platform).platform = w.platform from rfl,
      hrender]
    rfl
  | shown hreads hrender houtput hroom | unshown hreads hrender houtput hroom =>
    rw [run_of_renders h hreads hrender, run_deliver_none houtput]
    simp only [hroom, ↓reduceIte]
  | unwritten hreads hrender houtput hwrite | written hreads hrender houtput hwrite =>
    rw [run_of_renders h hreads hrender, run_deliver_some houtput, hwrite]

/-- **The ends of runs.** -/
theorem run_eq_iff (h : Arguments.read argv = .ok a) :
    w.run argv = (e, w') ↔ Ends a w e w' := by
  refine ⟨fun hrun => ?_, Ends.run_eq h⟩
  obtain ⟨e₀, w₀, hends⟩ := exists_ends a w
  obtain ⟨rfl, rfl⟩ := Prod.mk.inj ((hends.run_eq h).symm.trans hrun)
  exact hends

end World

end EmbeddedJsx
