import StakeSnapshot.Log.Line

/-!
# Which lines can be written

A template is filled piece by piece: a text between two directives is kept, and a directive takes the
next value (`Template.Fills`). The lines that are told have values that fit their directives, so that
only an integer with too many digits keeps a line from being written (`LogLine.isOk_text`).
-/

namespace StakeSnapshot

namespace Template

/-- Whether a part of a template can be filled with some values; the fuel does not matter as long as
there is enough of it. -/
def Fills (total : Nat) (s : List Char) (vs : List Value) (ok : Bool) : Prop :=
  ∀ fuel, s.length ≤ fuel → (fillFrom total fuel s vs).isOk = ok

theorem isOk_bind_pure {α β ε : Type} (x : Except ε α) (f : α → β) :
    (x >>= fun a => pure (f a)).isOk = x.isOk := by
  cases x <;> rfl

namespace Fills

variable {total : Nat} {rest : List Char} {vs : List Value} {ok : Bool}

theorem nil : Fills total [] [] true := by
  intro fuel _
  cases fuel <;> rfl

theorem literal (cs : List Char) (hcs : '%' ∉ cs) (h : Fills total rest vs ok) :
    Fills total (cs ++ rest) vs ok := by
  induction cs with
  | nil => exact h
  | cons c cs ih =>
    intro fuel hfuel
    cases fuel with
    | zero => simp at hfuel
    | succ fuel =>
      rw [List.cons_append, List.length_cons] at hfuel
      obtain ⟨hc, hcs⟩ := not_or.1 (mt List.mem_cons.2 hcs)
      rw [List.cons_append, fillFrom.eq_5 _ _ _ _ _ (Ne.symm hc), isOk_bind_pure]
      exact ih hcs fuel (by omega)

/-- A directive shows the next value, if it can. -/
theorem directive (cs : List Char) {v : Value} {shown : Except TemplateFault (List Char)}
    (hdirective : Template.directive total (cs ++ rest) (v :: vs) =
      shown.map fun text => (text, rest, vs))
    (h : Fills total rest vs ok) : Fills total ('%' :: (cs ++ rest)) (v :: vs) (shown.isOk && ok) := by
  intro fuel hfuel
  cases fuel with
  | zero => simp at hfuel
  | succ fuel =>
    rw [fillFrom, hdirective]
    cases shown with
    | error fault => rfl
    | ok text =>
      simp only [List.length_cons, List.length_append] at hfuel
      exact (isOk_bind_pure _ _).trans (h fuel (by omega))

theorem word (s : String) (h : Fills total rest vs ok) :
    Fills total ('%' :: 's' :: rest) (.text s :: vs) ok := by
  have hshown : Template.directive total ('s' :: rest) (.text s :: vs) =
      (Except.ok (placeText .plain s.toList)).map fun text => (text, rest, vs) := rfl
  exact directive ['s'] hshown h

theorem integer (n : Int) (h : Fills total rest vs ok) :
    Fills total ('%' :: 'd' :: rest) (.int n :: vs) (Number.isWritable n && ok) := by
  have hshown : Template.directive total ('d' :: rest) (.int n :: vs) =
      (if Number.isWritable n then .ok (placeInteger .plain 'd' n)
        else .error .hugeInteger : Except TemplateFault (List Char)).map
        fun text => (text, rest, vs) := by
    change (do
      let text ← (do
        if Number.isWritable n then return placeInteger .plain 'd' n else throw .hugeInteger)
      return (text, rest, vs) : Except TemplateFault _) = _
    split <;> rfl
  have hfills := directive ['d'] hshown h
  have hok : (if Number.isWritable n then .ok (placeInteger .plain 'd' n)
      else .error .hugeInteger : Except TemplateFault (List Char)).isOk = Number.isWritable n := by
    cases Number.isWritable n <;> rfl
  rwa [hok] at hfills

theorem seconds (x : Number.Binary64) (h : Fills total rest vs ok) :
    Fills total ('%' :: '.' :: '2' :: 'f' :: rest) (.float x :: vs) ok := by
  have hshown : Template.directive total ('.' :: '2' :: 'f' :: rest) (.float x :: vs) =
      (Except.ok (placeFloat { Directive.plain with precision := some 2 } 'f' x)).map
        fun text => (text, rest, vs) := rfl
  exact directive ['.', '2', 'f'] hshown h

end Fills

theorem isOk_fill {cs : List Char} {vs : List Value} {ok : Bool} (hvs : vs.isEmpty = false)
    (h : ∀ total, Fills total cs vs ok) : (fill (String.ofList cs) vs).isOk = ok := by
  have hfuel := h cs.length cs.length (Nat.le_refl _)
  rw [fill, hvs, if_neg Bool.false_ne_true, String.toList_ofList, String.length_ofList, ← hfuel]
  cases fillFrom cs.length cs.length cs vs <;> rfl

end Template

namespace LogLine

/-- Only a block that is no integer does not fit into its line. -/
def Fits : LogLine → Prop
  | started block _ => ∃ n, block = .int n
  | _ => True

/-- The integers that the text of a line shows. -/
def integers : LogLine → List Int
  | started (.int block) slot => [block, slot]
  | started _ slot => [slot]
  | startsLater _ start epoch => [start, epoch]
  | exited _ exit epoch => [exit, epoch]
  | _ => []

open Template Fills in
/-- A line with fitting values can be written just if its integers can. -/
theorem isOk_text (elapsed : Number.Binary64) {line : LogLine} (hline : line.Fits) :
    (line.text elapsed).isOk = line.integers.all Number.isWritable := by
  have hend (cs : List Char) (hcs : '%' ∉ cs) {total : Nat} : Fills total cs [] true := by
    simpa using literal cs hcs nil
  rw [LogLine.text]
  cases line with
  | started _ slot =>
    obtain ⟨block, rfl⟩ := hline
    dsimp only [template]
    exact isOk_fill rfl fun _ => literal "Getting network state for EL block ".toList (by decide) <|
      integer block <| literal ", Beacon slot ".toList (by decide) <| integer slot nil
  | nodesRead =>
    dsimp only [template]
    exact isOk_fill rfl fun _ => literal "1/4 - Retrieved node details (".toList (by decide) <|
      seconds elapsed <| hend "s so far)".toList (by decide)
  | minipoolsRead =>
    dsimp only [template]
    exact isOk_fill rfl fun _ => literal "2/4 - Retrieved minipool details (".toList (by decide) <|
      seconds elapsed <| hend "s so far)".toList (by decide)
  | indexed =>
    dsimp only [template]
    exact isOk_fill rfl fun _ => literal "3/4 - Created lookups (".toList (by decide) <|
      seconds elapsed <| hend "s so far)".toList (by decide)
  | validatorsRead =>
    dsimp only [template]
    exact isOk_fill rfl fun _ =>
      literal "4/4 - Retrieved validator details (total time: ".toList (by decide) <|
        seconds elapsed <| hend "s)".toList (by decide)
  | unknownValidator minipool pubkey =>
    dsimp only [template]
    exact isOk_fill rfl fun _ => literal "NOTE: minipool ".toList (by decide) <| word minipool <|
      literal " (pubkey ".toList (by decide) <| word pubkey <|
        hend ") didn't exist, ignoring it in effective RPL calculation".toList (by decide)
  | startsLater minipool start epoch =>
    dsimp only [template]
    exact isOk_fill rfl fun _ => literal "NOTE: minipool ".toList (by decide) <| word minipool <|
      literal " starts on epoch ".toList (by decide) <| integer start <|
        literal " which is after interval epoch ".toList (by decide) <| integer epoch <|
          hend " so it's not eligible for RPL rewards".toList (by decide)
  | exited minipool exit epoch =>
    dsimp only [template]
    exact isOk_fill rfl fun _ => literal "NOTE: minipool ".toList (by decide) <| word minipool <|
      literal " exited on epoch ".toList (by decide) <| integer exit <|
        literal " which is not after interval epoch ".toList (by decide) <| integer epoch <|
          hend " so it's not eligible for RPL rewards".toList (by decide)

end LogLine

namespace Logger

variable {lines : List LogLine}

/-- Lines cannot all be told just if one of them cannot. -/
theorem exists_tell_eq_error_iff {log : Logger} :
    (∃ fault, log.tell lines = .error fault) ↔
      ∃ line ∈ lines, ∃ fault, log line = .error fault := by
  induction lines with
  | nil => simp [tell]
  | cons line lines ih =>
    simp only [tell, List.mem_cons, exists_eq_or_imp]
    cases log line with
    | ok _ => simpa [bind, Except.bind] using ih
    | error fault => simp [bind, Except.bind]

/-- A line with fitting values cannot be written just if an integer in it has too many digits. -/
theorem exists_writing_eq_error_iff {elapsed : Number.Binary64} {line : LogLine}
    (hline : line.Fits) :
    (∃ fault, writing elapsed line = .error fault) ↔
      ∃ i ∈ line.integers, Number.isWritable i = false := by
  have hok := LogLine.isOk_text elapsed hline
  rw [writing]
  cases htext : line.text elapsed with
  | ok text =>
    rw [htext] at hok
    simpa [Except.map] using List.all_eq_true.1 hok.symm
  | error fault =>
    rw [htext] at hok
    simpa [Except.map] using List.all_eq_false.1 hok.symm

end Logger

end StakeSnapshot
