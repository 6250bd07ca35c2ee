import Halmasuit.Lib.Glsl
import Halmasuit.Lib.Text

/-!
# The source of a shader

`assemble_source` with `is_shadertoy_shape` and `uses_derivatives`
(`halmasuit/src/wallpaper/shader.rs` 35–106). A user's text that has Shadertoy's entry point is put
between a preamble and a wrapper. `GL_OES_standard_derivatives` has to be turned on for `fwidth`,
`dFdx` and `dFdy`, before the first token that is not the preprocessor's; the directive is put in
front when one of the names is in the text and the directive, in one spelling, is not.

What the text says in comments, in groups that are skipped and behind the preamble counts for that
like anything else (`directives_that_fail`).

- **`assembleSource_iff`**: for which texts the directive is where it has to be, once.
-/

namespace Halmasuit.Wallpaper.Shader

open Halmasuit.Lib.Glsl
open Halmasuit.Lib.Text (unlines infix_append_cons)

/-! ## The texts -/

/-- `SHADERTOY_PREAMBLE`. -/
def shadertoyPreamble : List Char :=
  unlines <| [
    "",
    "precision mediump float;",
    "uniform vec3 iResolution;",
    "uniform float iTime;",
    "uniform float iTimeDelta;",
    "uniform int iFrame;",
    "uniform vec4 iMouse;"].map String.toList

/-- `SHADERTOY_WRAPPER`. -/
def shadertoyWrapper : List Char :=
  unlines <| [
    "",
    "void main() \x7b",
    "    vec4 color;",
    "    mainImage(color, gl_FragCoord.xy);",
    "    gl_FragColor = color;",
    "\x7d"].map String.toList

/-- `DERIVATIVES_EXTENSION`. -/
def derivativesExtension : List Char :=
  "#extension GL_OES_standard_derivatives : enable".toList

/-- `str::contains`. -/
def contains (s sub : List Char) : Bool := decide (sub <:+: s)

/-- `is_shadertoy_shape`. -/
def isShadertoyShape (src : List Char) : Bool := contains src "mainImage(".toList

/-- `uses_derivatives`. -/
def usesDerivatives (src : List Char) : Bool :=
  contains src "fwidth".toList || contains src "dFdx".toList || contains src "dFdy".toList

/-- The text between the preamble and the wrapper. -/
def inShadertoy (src : List Char) : List Char :=
  shadertoyPreamble ++ '\n' :: (src ++ '\n' :: shadertoyWrapper)

def body (src : List Char) : List Char := if isShadertoyShape src then inShadertoy src else src

/-- `assemble_source`. -/
def assembleSource (src : List Char) : List Char :=
  if usesDerivatives (body src) && !contains (body src) derivativesExtension then
    derivativesExtension ++ '\n' :: body src
  else body src

/-! ## What is asked of it -/

/-- The builtins that the extension brings. -/
def derivatives : List (List Char) := ["fwidth".toList, "dFdx".toList, "dFdy".toList]

def extensionName : List Char := "GL_OES_standard_derivatives".toList

/-- The builtins are called with the extension turned on, and it is not turned on again. -/
structure Assembled (pp : Preprocessor) (src : List Char) : Prop where
  enabled : pp.Calls derivatives (assembleSource src) →
    pp.Enables extensionName (assembleSource src)
  once : pp.Enables extensionName (body src) → assembleSource src = body src

/-! ## The parts -/

theorem contains_iff {s sub : List Char} : contains s sub = true ↔ sub <:+: s := decide_eq_true_iff

/-- What is looked for stands in one line, and not in what is added. -/
theorem sought_spec : ∀ sub ∈ derivativesExtension :: derivatives, sub ≠ [] ∧ '\n' ∉ sub ∧
    ¬ sub <:+: shadertoyPreamble ∧ ¬ sub <:+: shadertoyWrapper := by decide +kernel

/-- What is looked for is found where the user's text has it. -/
theorem contains_body {sub : List Char} (h : sub ∈ derivativesExtension :: derivatives)
    (src : List Char) : contains (body src) sub = contains src sub := by
  obtain ⟨hne, hn, hpre, hwrap⟩ := sought_spec sub h
  unfold body
  split
  · rw [Bool.eq_iff_iff, contains_iff, contains_iff, inShadertoy, infix_append_cons hne hn,
      infix_append_cons hne hn, or_iff_right hpre, or_iff_left hwrap]
  · rfl

theorem usesDerivatives_body (src : List Char) :
    usesDerivatives (body src) = usesDerivatives src := by
  unfold usesDerivatives
  rw [contains_body (by simp [derivatives]), contains_body (by simp [derivatives]),
    contains_body (by simp [derivatives])]

theorem declares_body (src : List Char) :
    contains (body src) derivativesExtension = contains src derivativesExtension :=
  contains_body List.mem_cons_self src

theorem usesDerivatives_iff {t : List Char} :
    usesDerivatives t = true ↔ ∃ n ∈ derivatives, n <:+: t := by
  simp [usesDerivatives, derivatives, contains_iff, or_assoc]

section
variable {pp : Preprocessor}

/-- A text that calls one of the builtins has its name. -/
theorem usesDerivatives_of_calls {t : List Char} (h : pp.Calls derivatives t) :
    usesDerivatives t = true := by
  refine usesDerivatives_iff.mpr (Preprocessor.infix_of_calls ?_ h)
  simp [derivatives]

/-- The directive that is put in front is where it has to be. -/
theorem enables_extension (t : List Char) :
    pp.Enables extensionName (derivativesExtension ++ '\n' :: t) :=
  Preprocessor.enables_of_first (lines_line (by decide) (by decide +kernel)) (by decide +kernel)
    (by decide +kernel)

/-- The preamble declares before the user's text says anything. -/
theorem not_enables_inShadertoy (src : List Char) :
    ¬ pp.Enables extensionName (inShadertoy src) := by
  have hlines (rest : List Char) :
      lines ([] ++ '\n' :: ("precision mediump float;".toList ++ '\n' :: rest))
        = [lex []] ++ lex "precision mediump float;".toList :: lines rest := by
    rw [lines_line List.not_mem_nil (by decide), lines_line (by decide) (by decide +kernel)]
    rfl
  unfold inShadertoy shadertoyPreamble unlines
  rw [List.map_cons, List.map_cons, List.flatMap_cons, List.flatMap_cons]
  simp only [List.append_assoc, List.singleton_append]
  exact Preprocessor.not_enables_of_text (hlines _) (by decide) (by decide +kernel)
    (by decide +kernel)

/-- The ways through the tests of the source: the directive is found, it is put in front, or no name
is found. -/
theorem assembled_cases {src : List Char} : Assembled pp src ↔
    (contains src derivativesExtension = true → pp.Calls derivatives (body src) →
      pp.Enables extensionName (body src)) ∧
    (contains src derivativesExtension = false → usesDerivatives src = true →
      ¬ pp.Enables extensionName (body src)) := by
  cases hd : contains src derivativesExtension with
  | true =>
    have has : assembleSource src = body src := by
      simp [assembleSource, declares_body, hd]
    constructor
    · intro h
      have henabled := h.enabled
      rw [has] at henabled
      exact ⟨fun _ => henabled, by simp⟩
    · intro h
      refine ⟨?_, fun _ => has⟩
      rw [has]
      exact h.1 rfl
  | false =>
    cases hu : usesDerivatives src with
    | true =>
      have has : assembleSource src = derivativesExtension ++ '\n' :: body src := by
        simp [assembleSource, declares_body, usesDerivatives_body, hd, hu]
      have hlonger : assembleSource src ≠ body src := by
        intro h
        have hlen := congrArg List.length (has.symm.trans h)
        simp only [List.length_append, List.length_cons] at hlen
        omega
      constructor
      · intro h
        exact ⟨by simp, fun _ _ hon => hlonger (h.once hon)⟩
      · intro h
        refine ⟨fun _ => ?_, fun hon => absurd hon (h.2 rfl rfl)⟩
        rw [has]
        exact enables_extension _
    | false =>
      have has : assembleSource src = body src := by
        simp [assembleSource, usesDerivatives_body, hu]
      refine iff_of_true ⟨fun hc => ?_, fun _ => has⟩ ⟨by simp, by simp⟩
      rw [has] at hc
      have hno := usesDerivatives_of_calls hc
      rw [usesDerivatives_body, hu] at hno
      cases hno

end

/-! ## When it does what is asked -/

/-- **When the extension is turned on where it has to be, and once.** A text of Shadertoy's shape
must not have the directive in it if it calls one of the builtins. Another text that has it,
anywhere and in this spelling, must turn the extension on before its first token if it calls one of
them; and one that does not have it, but has one of the names, must not turn the extension on. -/
theorem assembleSource_iff (pp : Preprocessor) (src : List Char) :
    Assembled pp src ↔
      if isShadertoyShape src then
        contains src derivativesExtension = true → ¬ pp.Calls derivatives (inShadertoy src)
      else if contains src derivativesExtension then
        pp.Calls derivatives src → pp.Enables extensionName src
      else usesDerivatives src = true → ¬ pp.Enables extensionName src := by
  rw [assembled_cases]
  by_cases hs : isShadertoyShape src = true
  · have hoff := @not_enables_inShadertoy pp src
    rw [if_pos hs, body, if_pos hs]
    simp [hoff]
  · rw [if_neg hs, body, if_neg hs]
    cases contains src derivativesExtension with
    | true => simp
    | false => simp

/-- The preprocessor of texts without macros and conditions. -/
def bare : Preprocessor where
  holds _ _ := false
  expand ls := (ls.filter fun l => (directive? l).isNone).flatten
  names ls w _ h := by
    obtain ⟨l, hl, hw⟩ := List.mem_flatten.mp h
    exact ⟨l, (List.mem_filter.mp hl).1, hw⟩

/-- The directive is in a comment. -/
def commented : List Char :=
  unlines <| [
    "// #extension GL_OES_standard_derivatives : enable",
    "void main() \x7b gl_FragColor = vec4(fwidth(gl_FragCoord.x)); \x7d"].map String.toList

/-- The directive comes behind the preamble. -/
def shadertoy : List Char :=
  unlines <| [
    "#extension GL_OES_standard_derivatives : enable",
    "void mainImage(out vec4 color, in vec2 p) \x7b color = vec4(fwidth(p.x)); \x7d"].map
      String.toList

/-- The directive is spelled in another way. -/
def respelled : List Char :=
  unlines <| [
    "#extension GL_OES_standard_derivatives: enable",
    "void main() \x7b gl_FragColor = vec4(fwidth(gl_FragCoord.x)); \x7d"].map String.toList

/-- Two texts that call `fwidth` with the extension off, and one that turns it on twice. -/
theorem directives_that_fail :
    (bare.Calls derivatives (assembleSource commented) ∧
      ¬ bare.Enables extensionName (assembleSource commented)) ∧
    (bare.Calls derivatives (assembleSource shadertoy) ∧
      ¬ bare.Enables extensionName (assembleSource shadertoy)) ∧
    (bare.Enables extensionName (body respelled) ∧
      assembleSource respelled = derivativesExtension ++ '\n' :: body respelled) := by
  decide +kernel

end Halmasuit.Wallpaper.Shader
