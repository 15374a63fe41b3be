import FormulaScript.Proofs.Lexeme.Shape
import FormulaScript.Proofs.Scanner.Step

/-!
# Runs of a scanner

What a scanner goes on to read is settled by the text ahead of it, its options and its section: the
position only moves the spans, and what was reported or remembered on the way changes nothing.
-/

namespace FormulaScript

def Span.shift (span : Span) (offset : Nat) : Span :=
  ⟨span.start + offset, span.stop + offset⟩

/-- The token, so many bytes later. -/
def Token.shift (token : Token) (offset : Nat) : Token :=
  { token with span := token.span.shift offset }

@[simp]
theorem Token.shift_zero (token : Token) : token.shift 0 = token := rfl

@[simp]
theorem Token.kind_shift (token : Token) (offset : Nat) : (token.shift offset).kind = token.kind :=
  rfl

@[simp]
theorem Token.flags_shift (token : Token) (offset : Nat) :
    (token.shift offset).flags = token.flags := rfl

namespace Token

/-- Tokens that begin at an offset or later and follow one another without overlap. -/
def Ascend : Nat → List Token → Prop
  | _, [] => True
  | offset, token :: rest =>
      offset ≤ token.span.start ∧ token.span.start ≤ token.span.stop ∧ Ascend token.span.stop rest

theorem Ascend.isChain {offset : Nat} {tokens : List Token} (hascend : Ascend offset tokens) :
    tokens.IsChain fun token next => token.span.stop ≤ next.span.start := by
  induction tokens generalizing offset with
  | nil => exact .nil
  | cons token rest ih =>
      obtain ⟨-, -, hrest⟩ := hascend
      cases rest with
      | nil => exact .singleton token
      | cons next rest => exact .cons_cons hrest.1 (ih hrest)

theorem Ascend.of_append {offset : Nat} {front back : List Token}
    (hascend : Ascend offset (front ++ back)) : Ascend offset front := by
  induction front generalizing offset with
  | nil => trivial
  | cons token front ih => exact ⟨hascend.1, hascend.2.1, ih hascend.2.2⟩

end Token

namespace Scanner

/-! ### Scanners with the same text ahead -/

/-- Two scanners with the same text ahead, the second of which stands so many bytes later. -/
structure Agree (offset : Nat) (left right : Scanner) : Prop where
  options : right.options = left.options
  part : right.part = left.part
  remaining : right.remaining = left.remaining
  position : right.position = left.position + offset

theorem Agree.refl (scanner : Scanner) : Agree 0 scanner scanner :=
  ⟨rfl, rfl, rfl, rfl⟩

theorem Agree.takeLineCrossed {offset : Nat} {left right : Scanner} (h : Agree offset left right) :
    Agree offset left right.takeLineCrossed.2 :=
  ⟨h.options, h.part, h.remaining, h.position⟩

section Agree

variable {offset : Nat} {left right : Scanner}

theorem Agree.inTemplateText (h : Agree offset left right) :
    right.inTemplateText = left.inTemplateText := by
  rw [Scanner.inTemplateText, h.options, h.part, Scanner.inTemplateText]

variable [Text.Letters]

theorem Agree.gap (h : Agree offset left right) : right.gap = left.gap := by
  rw [Scanner.gap, h.inTemplateText, h.options, h.remaining, Scanner.gap]

theorem Agree.front (h : Agree offset left right) : right.front = left.front := by
  rw [Scanner.front, h.gap, h.remaining, Scanner.front]

theorem Agree.lexeme? (h : Agree offset left right) : right.lexeme? = left.lexeme? := by
  rw [Scanner.lexeme?, h.inTemplateText, h.front, h.options, Scanner.lexeme?]

theorem Agree.start (h : Agree offset left right) : right.start = left.start + offset := by
  rw [Scanner.start, h.gap, h.position, Scanner.start, Nat.add_right_comm]

theorem Agree.token (h : Agree offset left right) :
    right.next.1 = left.next.1.shift offset := by
  cases hlexeme : left.lexeme? with
  | none =>
      rw [token_eq_endToken left hlexeme, token_eq_endToken right (h.lexeme?.trans hlexeme),
        endToken, h.start, h.gap]
      rfl
  | some lexeme =>
      rw [token_eq_tokenOf left hlexeme, token_eq_tokenOf right (h.lexeme?.trans hlexeme), tokenOf,
        h.start, h.gap, Nat.add_right_comm]
      rfl

theorem Agree.next (h : Agree offset left right) : Agree offset left.next.2 right.next.2 := by
  have hposition : right.next.2.position = left.next.2.position + offset := by
    rw [position_next, position_next, h.token]
    rfl
  cases hlexeme : left.lexeme? with
  | none =>
      have hright := h.lexeme?.trans hlexeme
      exact
        { options := by rw [options_next, options_next, h.options]
          part := by rw [part_next_of_end _ hlexeme, part_next_of_end _ hright]
          remaining := by rw [remaining_next_of_end _ hlexeme, remaining_next_of_end _ hright]
          position := hposition }
  | some lexeme =>
      have hright := h.lexeme?.trans hlexeme
      have hremaining : right.next.2.remaining = left.next.2.remaining := by
        rw [remaining_next_of_lexeme _ hlexeme, remaining_next_of_lexeme _ hright, h.front]
      exact
        { options := by rw [options_next, options_next, h.options]
          part := by
            rw [part_next_of_lexeme _ hlexeme, part_next_of_lexeme _ hright, hremaining, partAfter,
              h.inTemplateText, h.part, partAfter]
          remaining := hremaining
          position := hposition }

end Agree

variable [Text.Letters]

theorem stands_of_lexeme? {scanner : Scanner} {lexeme : Lexeme}
    (hlexeme : scanner.lexeme? = some lexeme) : lexeme.Stands := by
  unfold lexeme? at hlexeme
  split_ifs at hlexeme
  · obtain rfl := Option.some.inj hlexeme
    exact ⟨by simp [textLexeme, Lexeme.verbatim], by simp [textLexeme, Lexeme.verbatim], rfl⟩
  · exact Lexeme.stands_of_first? hlexeme

theorem kind_token_eq_endOfText_iff (scanner : Scanner) :
    scanner.next.1.kind = .endOfText ↔ scanner.lexeme? = none := by
  cases hlexeme : scanner.lexeme? with
  | none => simp [token_eq_endToken scanner hlexeme, endToken]
  | some lexeme =>
      simpa [token_eq_tokenOf scanner hlexeme, tokenOf] using
        (stands_of_lexeme? hlexeme).kind_ne_endOfText

theorem isInserted_token (scanner : Scanner) : scanner.next.1.isInserted = false := by
  cases hlexeme : scanner.lexeme? with
  | none => simp [token_eq_endToken scanner hlexeme, endToken, Token.isInserted]
  | some lexeme =>
      simpa [token_eq_tokenOf scanner hlexeme, tokenOf, Token.isInserted] using
        (stands_of_lexeme? hlexeme).not_inserted

/-! ### The tokens of a run -/

theorem run_of_end {scanner : Scanner} (hkind : scanner.next.1.kind = .endOfText) :
    scanner.run = ([scanner.next.1], scanner.next.2) := by
  rw [run.eq_def]
  exact dif_pos hkind

theorem run_of_token {scanner : Scanner} (hkind : scanner.next.1.kind ≠ .endOfText) :
    scanner.run = (scanner.next.1 :: scanner.next.2.run.1, scanner.next.2.run.2) := by
  rw [run.eq_def]
  exact dif_neg hkind

theorem tokens_of_end {scanner : Scanner} (hkind : scanner.next.1.kind = .endOfText) :
    scanner.tokens = [scanner.next.1] := by
  rw [tokens, run_of_end hkind]

theorem tokens_of_token {scanner : Scanner} (hkind : scanner.next.1.kind ≠ .endOfText) :
    scanner.tokens = scanner.next.1 :: scanner.next.2.tokens := by
  rw [tokens, run_of_token hkind, tokens]

/-- A run is followed from its last token back to the first one. -/
theorem run_induction {motive : Scanner → Prop}
    (last : ∀ scanner, scanner.next.1.kind = .endOfText → motive scanner)
    (step : ∀ scanner, scanner.next.1.kind ≠ .endOfText → motive scanner.next.2 → motive scanner)
    (scanner : Scanner) : motive scanner := by
  fun_induction run scanner with
  | case1 scanner token next hnext hkind => exact last scanner (by rwa [hnext])
  | case2 scanner token next hnext hkind rest end' hrest ih =>
      exact step scanner (by rwa [hnext]) (by rwa [hnext])

theorem Agree.tokens {offset : Nat} {left right : Scanner} (h : Agree offset left right) :
    right.tokens = left.tokens.map (·.shift offset) := by
  induction left using run_induction generalizing right with
  | last left hkind =>
      have hright : right.next.1.kind = .endOfText := by rwa [h.token]
      rw [tokens_of_end hkind, tokens_of_end hright, h.token]
      rfl
  | step left hkind ih =>
      have hright : right.next.1.kind ≠ .endOfText := by rwa [h.token]
      rw [tokens_of_token hkind, tokens_of_token hright, h.token, ih h.next]
      rfl

theorem getElem?_zero_tokens (scanner : Scanner) :
    scanner.tokens[0]? = some scanner.next.1 := by
  by_cases hkind : scanner.next.1.kind = .endOfText
  · rw [tokens_of_end hkind]
    rfl
  · rw [tokens_of_token hkind]
    rfl

theorem getElem?_succ_tokens {scanner : Scanner} {index : Nat} {token : Token}
    (htoken : scanner.tokens[index + 1]? = some token) :
    scanner.next.1.kind ≠ .endOfText ∧ scanner.next.2.tokens[index]? = some token := by
  by_cases hkind : scanner.next.1.kind = .endOfText
  · rw [tokens_of_end hkind] at htoken
    cases htoken
  · rw [tokens_of_token hkind] at htoken
    exact ⟨hkind, htoken⟩

theorem isInserted_of_mem_tokens {scanner : Scanner} {token : Token}
    (hmem : token ∈ scanner.tokens) : token.isInserted = false := by
  induction scanner using run_induction with
  | last scanner hkind =>
      rw [tokens_of_end hkind, List.mem_singleton] at hmem
      exact hmem ▸ isInserted_token scanner
  | step scanner hkind ih =>
      rw [tokens_of_token hkind] at hmem
      rcases List.mem_cons.mp hmem with rfl | hrest
      · exact isInserted_token scanner
      · exact ih hrest

/-! ### The tokens before the end -/

/-- The tokens up to the end of the text, without the end token. -/
def body (scanner : Scanner) : List Token :=
  scanner.tokens.filter (·.kind ≠ .endOfText)

theorem body_of_end {scanner : Scanner} (hkind : scanner.next.1.kind = .endOfText) :
    scanner.body = [] := by
  simp [body, tokens_of_end hkind, hkind]

theorem body_of_token {scanner : Scanner} (hkind : scanner.next.1.kind ≠ .endOfText) :
    scanner.body = scanner.next.1 :: scanner.next.2.body := by
  simp [body, tokens_of_token hkind, hkind]

/-- A run ends with its only end token, which stands at the end of the text. -/
theorem exists_tokens_eq_body_concat (scanner : Scanner) :
    ∃ last, scanner.tokens = scanner.body ++ [last] ∧ last.kind = .endOfText ∧
      last.span = .empty (scanner.position + Text.byteLength scanner.remaining) := by
  induction scanner using run_induction with
  | last scanner hkind =>
      have hlexeme := (kind_token_eq_endOfText_iff scanner).mp hkind
      have hspelling := scanner.spelling_gap_append_front
      rw [front_eq_nil_of_lexeme?_eq_none hlexeme, List.append_nil] at hspelling
      refine ⟨scanner.next.1, by rw [tokens_of_end hkind, body_of_end hkind]; rfl, hkind, ?_⟩
      rw [token_eq_endToken scanner hlexeme, ← hspelling]
      rfl
  | step scanner hkind ih =>
      obtain ⟨last, htokens, hlast, hspan⟩ := ih
      rw [position_add_byteLength_next] at hspan
      refine ⟨last, ?_, hlast, hspan⟩
      rw [tokens_of_token hkind, body_of_token hkind, htokens, List.cons_append]

/-! ### Counted steps -/

def after (scanner : Scanner) : Nat → Scanner
  | 0 => scanner
  | count + 1 => scanner.next.2.after count

/-- So many tokens, the end token over and over where the text has no more. -/
def firstTokens (scanner : Scanner) : Nat → List Token
  | 0 => []
  | count + 1 => scanner.next.1 :: scanner.next.2.firstTokens count

theorem after_succ (scanner : Scanner) (count : Nat) :
    scanner.after (count + 1) = (scanner.after count).next.2 := by
  induction count generalizing scanner with
  | zero => rfl
  | succ count ih => exact ih scanner.next.2

/-- A run is made of the steps up to and with the first end token. -/
theorem run_eq (scanner : Scanner) :
    scanner.run =
      (scanner.firstTokens (scanner.body.length + 1), scanner.after (scanner.body.length + 1)) := by
  induction scanner using run_induction with
  | last scanner hkind =>
      rw [run_of_end hkind, body_of_end hkind]
      rfl
  | step scanner hkind ih =>
      rw [run_of_token hkind, ih, body_of_token hkind]
      rfl

/-- Where the kinds of the tokens are the same, runs come to their ends after as many tokens. -/
theorem length_body_eq_of_kinds {left right : Scanner}
    (hkinds : ∀ count, (right.after count).next.1.kind = (left.after count).next.1.kind) :
    right.body.length = left.body.length := by
  have hfirst : right.next.1.kind = left.next.1.kind := hkinds 0
  induction left using run_induction generalizing right with
  | last left hkind => rw [body_of_end hkind, body_of_end (hfirst.trans hkind)]
  | step left hkind ih =>
      have hkind' : right.next.1.kind ≠ .endOfText := by rwa [hfirst]
      rw [body_of_token hkind, body_of_token hkind', List.length_cons, List.length_cons,
        ih (fun count => hkinds (count + 1)) (hkinds 1)]

theorem firstTokens_succ (scanner : Scanner) (count : Nat) :
    scanner.firstTokens (count + 1) =
      scanner.firstTokens count ++ [(scanner.after count).next.1] := by
  induction count generalizing scanner with
  | zero => rfl
  | succ count ih =>
      rw [firstTokens, ih, firstTokens, after, List.cons_append]

theorem firstTokens_add (scanner : Scanner) (count more : Nat) :
    scanner.firstTokens (count + more) =
      scanner.firstTokens count ++ (scanner.after count).firstTokens more := by
  induction count generalizing scanner with
  | zero => rw [Nat.zero_add, after, firstTokens, List.nil_append]
  | succ count ih => rw [Nat.add_right_comm, firstTokens, ih, firstTokens, after, List.cons_append]

theorem after_add (scanner : Scanner) (count more : Nat) :
    scanner.after (count + more) = (scanner.after count).after more := by
  induction count generalizing scanner with
  | zero => rw [Nat.zero_add, after]
  | succ count ih => rw [Nat.add_right_comm, after, ih, after]

@[simp]
theorem length_firstTokens (scanner : Scanner) (count : Nat) :
    (scanner.firstTokens count).length = count := by
  induction count generalizing scanner with
  | zero => rfl
  | succ count ih => rw [firstTokens, List.length_cons, ih]

/-- Tokens that lie one behind the other are read one after the other. -/
theorem firstTokens_of_append {scanner : Scanner} {count : Nat} {front back : List Token}
    (htokens : scanner.firstTokens count = front ++ back) :
    scanner.firstTokens front.length = front ∧
      (scanner.after front.length).firstTokens back.length = back := by
  have hcount : count = front.length + back.length := by
    rw [← scanner.length_firstTokens count, htokens, List.length_append]
  rw [hcount, firstTokens_add] at htokens
  exact List.append_inj htokens (scanner.length_firstTokens front.length)

theorem firstTokens_isPrefix (scanner : Scanner) {steps count : Nat} (hle : steps ≤ count) :
    scanner.firstTokens steps <+: scanner.firstTokens count := by
  induction hle with
  | refl => exact List.prefix_rfl
  | step hle ih =>
      rw [firstTokens_succ]
      exact ih.trans (List.prefix_append _ _)

theorem ascend_firstTokens (scanner : Scanner) (count : Nat) :
    Token.Ascend scanner.position (scanner.firstTokens count) := by
  induction count generalizing scanner with
  | zero => trivial
  | succ count ih =>
      refine ⟨position_le_start_token scanner, start_le_stop_token scanner, ?_⟩
      rw [← position_next]
      exact ih scanner.next.2

theorem lexeme?_eq_none_of_remaining_eq_nil {scanner : Scanner}
    (hremaining : scanner.remaining = []) :
    scanner.lexeme? = none := by
  have hfront : scanner.front = [] := by simp [front, hremaining]
  unfold lexeme?
  split_ifs with htext hempty
  · rfl
  · simp [hfront] at hempty
  · rw [hfront, Lexeme.first?_nil]

theorem body_of_remaining_eq_nil {scanner : Scanner} (hremaining : scanner.remaining = []) :
    scanner.body = [] := by
  apply body_of_end
  rw [kind_token_eq_endOfText_iff]
  exact lexeme?_eq_none_of_remaining_eq_nil hremaining

end Scanner

end FormulaScript
