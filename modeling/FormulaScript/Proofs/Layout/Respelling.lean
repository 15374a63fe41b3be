import FormulaScript.Proofs.Layout.Outlines
import FormulaScript.Proofs.Layout.Wrapping
import FormulaScript.Proofs.Scanner.Respelling

/-!
# Layout of a script in a new spelling

The new spelling of a script keeps the line breaks that layout goes by, so that the same marks are
inserted.
-/

namespace FormulaScript.Layout.Stream

/-- Which tokens a stream hands out is settled by the tokens before the end of the text. -/
theorem map_trace_tokens_eq_body (scanner : Scanner) :
    (ofScanner scanner).tokens.map Token.trace =
      State.completeOutlines {} (scanner.body.map Token.outline) ++ [(.endOfText, false)] := by
  obtain ⟨last, htokens, hlast, -⟩ := scanner.exists_tokens_eq_body_concat
  rw [map_trace_tokens, htokens, List.map_append, List.map_singleton, Token.outline, hlast,
    State.completeOutlines_concat_end]

/-- **Respelling.** A script may be spelled anew, each token behind a line feed or a space as a line
break stood before it or not. The same tokens are read up to the end of the text, with the same
contents and flags, and layout inserts the same marks between them. While both spellings have less
than `2 ^ 31` bytes, words hold all of both streams as it is. -/
theorem tokens_respelled (text : String) (unicodeIdentifiers : Bool) :
    let options : Options := { mode := .script, unicodeIdentifiers := unicodeIdentifiers }
    let respelled := Scanner.respell text options
    (Scanner.ofText respelled options).body.map Token.reading =
        (Scanner.ofText text options).body.map Token.reading ∧
      (ofText respelled options).tokens.map Token.trace =
        (ofText text options).tokens.map Token.trace ∧
      (Text.byteLength text.toList < 2 ^ 31 → (ofText text options).HeldInWords) ∧
      (Text.byteLength respelled.toList < 2 ^ 31 → (ofText respelled options).HeldInWords) := by
  intro options respelled
  have hreading : (Scanner.ofText respelled options).body.map Token.reading =
      (Scanner.ofText text options).body.map Token.reading :=
    (Scanner.respelled_ofText text rfl).map_reading_body
  have houtline : Token.outline =
      (fun reading => (reading.1, reading.2.2.afterLineBreak)) ∘ Token.reading := rfl
  refine ⟨hreading, ?_, heldInWords_ofText options, heldInWords_ofText options⟩
  rw [ofText, ofText, map_trace_tokens_eq_body, map_trace_tokens_eq_body, houtline,
    ← List.map_map, ← List.map_map, hreading]

/-- Comments are left out, and a fraction behind a question mark stays apart from it. -/
theorem tokens_respelled_comments :
    let text := "a /* sum */ ==b // end\r\n ?.5"
    let respelled := " a == b\n? .5"
    Scanner.respell text {} = respelled ∧
      (ofText respelled {}).tokens.map Token.trace = (ofText text {}).tokens.map Token.trace ∧
      (ofText text {}).HeldInWords ∧ (ofText respelled {}).HeldInWords := by
  intro text respelled
  have hrespelled : Scanner.respell text {} = respelled := by decide +kernel
  obtain ⟨-, htrace, hheld, hheld'⟩ := tokens_respelled text false
  rw [hrespelled] at htrace hheld'
  exact ⟨hrespelled, htrace, hheld (by decide), hheld' (by decide)⟩

end FormulaScript.Layout.Stream
