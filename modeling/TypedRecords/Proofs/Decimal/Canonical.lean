import TypedRecords.Proofs.Decimal.Written
/-!
# Decimal texts

The text of a decimal is a number as JSON has it: no zero in front of other digits, digits on both sides of the point,
and a point only where there are decimal places. It states the exact value of the decimal, and it is read as the decimal.
-/

namespace TypedRecords

-- Powers are the core library's, whatever else is in scope.
attribute [local instance (5000)] instPowNat

open Text (isDigit)
open Json (Numeral IsRun)
open Json.Numeral (signChars fractionChars)

theorem Json.number_numeral (n : Numeral) : number? (String.ofList n.chars) = some (.num (String.ofList n.chars)) := by
  have hread : numberText (n.chars ++ []) = some (n.chars, []) := number_text_complete n rfl
  rw [List.append_nil] at hread
  rw [number?, String.toList_ofList, hread]

namespace Decimal

variable {z : Int} {p s : Nat} {d : Decimal}

theorem of_unscaled_ok_iff : ofUnscaled z p s = .ok d ↔ d.unscaled = z ∧ d.precision = p ∧ d.scale = s := by
  rw [← of_unscaled_iff, ofUnscaled]
  cases ofUnscaled? z p s with
  | none => simp only [reduceCtorEq]
  | some d' => simp only [Except.ok.injEq, Option.some.injEq]

theorem text_parts (d : Decimal) : ∃ whole fraction,
    d.text.toList = (if d.unscaled < 0 then ['-'] else []) ++ (whole ++ if d.scale = 0 then [] else '.' :: fraction) ∧
      IsRun whole ∧ (whole.head? = some '0' → whole = ['0']) ∧
      fraction.all isDigit = true ∧ fraction.length = d.scale := by
  obtain ⟨n, hchars, hexp, hsign, -, hcount⟩ := d.text_numeral
  refine ⟨n.whole, n.fraction, ?_, n.whole_run, n.whole_lead, n.fraction_all, hcount⟩
  have hpoint : fractionChars n.fraction = if d.scale = 0 then [] else '.' :: n.fraction := by
    rw [fractionChars, ← hcount]
    cases n.fraction <;> simp
  rw [text, String.toList_ofList, ← hchars, Literal.numeral_chars n hexp, hpoint, hsign, signChars]
  simp only [decide_eq_true_eq]

theorem text_number (d : Decimal) : Json.number? d.text = some (.num d.text) := by
  obtain ⟨n, hchars, -⟩ := d.text_numeral
  rw [text, ← hchars, Json.number_numeral]

theorem text_value {w : WrittenNumber} (hw : w.text = d.text) : w.value = d.unscaled * 10 ^ (-(d.scale : Int)) := by
  have hparse := d.parse_text
  rw [← hw] at hparse
  rw [← Literal.parse_value hparse, Literal.value]

/-- The text of every decimal that can be made is a strict number without an exponent. It is a number to a JSON reader,
states exactly the unscaled value with the point moved over the places, and is read as the decimal again. -/
theorem text_canonical (h : ofUnscaled z p s = .ok d) :
    (∃ whole fraction,
      d.text.toList = (if z < 0 then ['-'] else []) ++ (whole ++ if s = 0 then [] else '.' :: fraction) ∧
        IsRun whole ∧ (whole.head? = some '0' → whole = ['0']) ∧ fraction.all isDigit = true ∧ fraction.length = s) ∧
      Json.number? d.text = some (.num d.text) ∧
      (∃ w : WrittenNumber, w.text = d.text) ∧
      (∀ w : WrittenNumber, w.text = d.text → w.value = z * 10 ^ (-(s : Int))) ∧
      ofLiteral d.text p s = .ok d := by
  obtain ⟨rfl, rfl, rfl⟩ := of_unscaled_ok_iff.mp h
  refine ⟨d.text_parts, d.text_number, Literal.parse_text_written d.parse_text, ?_, d.of_literal_text⟩
  intro w hw
  exact text_value hw

/-- Nothing but places, with zeros put in front of the digits, and the most digits there are. -/
theorem text_canonical_places :
    (∃ d, ofUnscaled (-5) 4 3 = .ok d ∧ d.text = "-0.005" ∧ ofLiteral "-0.005" 4 3 = .ok d) ∧
      ∃ d, ofUnscaled (10 ^ 38 - 1) 38 38 = .ok d ∧ Json.number? d.text = some (.num d.text) ∧
        ofLiteral d.text 38 38 = .ok d := by
  constructor
  · have hsmall : ofUnscaled (-5) 4 3 = .ok ⟨-5, 4, 3, by decide, by decide, by decide, by decide⟩ := by decide
    obtain ⟨-, -, -, -, hread⟩ := text_canonical hsmall
    exact ⟨_, hsmall, rfl, hread⟩
  · have hlarge : ofUnscaled (10 ^ 38 - 1) 38 38 =
        .ok ⟨10 ^ 38 - 1, 38, 38, by decide, by decide, by decide, by decide⟩ := by decide
    obtain ⟨-, hnumber, -, -, hread⟩ := text_canonical hlarge
    exact ⟨_, hlarge, hnumber, hread⟩

end Decimal

end TypedRecords
