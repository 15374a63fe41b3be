import FormulaScript.Proofs.Layout.Functions
import FormulaScript.Proofs.Layout.Pulls
import FormulaScript.Proofs.Scanner.Blocks

/-!
# Functions in a substitution

In a template two counters go along with the same braces. The scanner counts the mark that opens a
substitution as well, wherever it stands, and the closing brace counts for either. Layout counts plain
braces only. So in the body of a function the two are apart by the marks that were read since the
body began, and the function ends where the depth of the scanner, these marks left out, is back at
what it was in front of the body. Without such a mark that is the brace that closes the body.
-/

namespace FormulaScript

def openingMarks (tokens : List Token) : Nat :=
  tokens.countP (·.kind = .punctuation .dollarOpenBrace)

theorem openingMarks_cons (token : Token) (rest : List Token) :
    openingMarks (token :: rest) = openingMarks [token] + openingMarks rest :=
  calc openingMarks (token :: rest)
    _ = openingMarks ([token] ++ rest) := rfl
    _ = openingMarks [token] + openingMarks rest := List.countP_append

theorem openingMarks_singleton (token : Token) :
    openingMarks [token] =
      if token.kind = .punctuation .dollarOpenBrace then 1 else 0 := by
  simp [openingMarks, List.countP_cons]

namespace Scanner

/-- Behind some tokens the scanner is back at a depth, when the marks of substitutions among them are
left out of the count. -/
def BackAt (scanner : Scanner) (depth : Nat) (tokens : List Token) : Prop :=
  (scanner.after tokens.length).part = .substitution (depth + openingMarks tokens)

instance (scanner : Scanner) (depth : Nat) (tokens : List Token) :
    Decidable (scanner.BackAt depth tokens) :=
  inferInstanceAs (Decidable (_ = _))

theorem backAt_cons (scanner : Scanner) (depth : Nat) (token : Token) (rest : List Token) :
    scanner.BackAt depth (token :: rest) ↔
      scanner.next.2.BackAt (depth + openingMarks [token]) rest := by
  rw [BackAt, openingMarks_cons, ← Nat.add_assoc]
  rfl

end Scanner

namespace Layout

/-- What layout keeps of a body with so many blocks open in it. -/
def Braces.inBody (blocks : Nat) : Braces :=
  ⟨List.replicate blocks false ++ [true], false⟩

namespace Braces

theorem endsBody_inBody_iff (blocks : Nat) :
    (inBody blocks).EndsBody (.punctuation .closeBrace) ↔ blocks = 0 := by
  rw [EndsBody, inBody]
  cases blocks with
  | zero => simp
  | succ blocks => simp [List.replicate_succ]

theorem takes_inBody {kind : Token.Kind} (hfunction : kind ≠ .keyword .functionWord)
    (blocks : Nat) : (inBody blocks).Takes kind :=
  ⟨fun h => absurd h hfunction, fun _ => ⟨rfl, by simp [inBody]⟩⟩

/-- A token that does not end the body opens a block, closes one, or leaves them as they are. -/
theorem exists_read_inBody {kind : Token.Kind} (hfunction : kind ≠ .keyword .functionWord)
    {blocks : Nat} (hopen : kind = .punctuation .closeBrace → 1 ≤ blocks) :
    ∃ blocks' : Nat, (inBody blocks).read kind = inBody blocks' ∧
      kind.braceStep + blocks =
        (if kind = .punctuation .dollarOpenBrace then 1 else 0) + (blocks' : Int) := by
  by_cases hopenBrace : kind = .punctuation .openBrace
  · subst hopenBrace
    refine ⟨blocks + 1, rfl, ?_⟩
    rw [Token.Kind.braceStep_openBrace, if_neg (by decide)]
    omega
  by_cases hcloseBrace : kind = .punctuation .closeBrace
  · subst hcloseBrace
    obtain ⟨blocks, rfl⟩ : ∃ less, blocks = less + 1 := ⟨blocks - 1, by have := hopen rfl; omega⟩
    refine ⟨blocks, rfl, ?_⟩
    rw [Token.Kind.braceStep_closeBrace, if_neg (by decide)]
    omega
  refine ⟨blocks, read_of_isPlain ⟨hfunction, hopenBrace, hcloseBrace⟩, ?_⟩
  by_cases hopening : kind = .punctuation .dollarOpenBrace
  · rw [hopening]
    rfl
  · rw [Token.Kind.braceStep_of_ne hopening hopenBrace hcloseBrace, if_neg hopening]

end Braces

section

variable {scanner : Scanner} {depth blocks : Nat}

/-- What a scanner and layout keep of a body is apart by the marks of substitutions, which are part
of the depth here. -/
theorem exists_inBody_next (hplaced : scanner.WellPlaced)
    (hpart : scanner.part = .substitution (depth + (blocks + 1)))
    (hend : scanner.next.1.kind ≠ .endOfText)
    (hfunction : scanner.next.1.kind ≠ .keyword .functionWord)
    (hopen : scanner.next.1.kind = .punctuation .closeBrace → 1 ≤ blocks) :
    ∃ blocks', (Braces.inBody blocks).read scanner.next.1.kind = .inBody blocks' ∧
      scanner.next.2.part =
        .substitution (depth + openingMarks [scanner.next.1] + (blocks' + 1)) := by
  obtain ⟨blocks', hread, hstep⟩ := Braces.exists_read_inBody hfunction hopen
  refine ⟨blocks', hread, hplaced.part_next_of_pos hpart hend (by omega) ?_⟩
  rw [openingMarks_singleton]
  split_ifs at hstep ⊢ <;> omega

/-- The brace that ends the body is the one behind which the depth is back. -/
theorem endsBody_iff_part_next (hplaced : scanner.WellPlaced) (hdepth : 1 ≤ depth)
    (hpart : scanner.part = .substitution (depth + (blocks + 1)))
    (hclose : scanner.next.1.kind = .punctuation .closeBrace) :
    (Braces.inBody blocks).EndsBody scanner.next.1.kind ↔
      scanner.next.2.part = .substitution depth := by
  have hnext : scanner.next.2.part = .substitution (depth + blocks) := by
    refine hplaced.part_next_of_pos hpart (by simp [hclose]) (by omega) ?_
    rw [hclose, Token.Kind.braceStep_closeBrace]
    omega
  rw [hclose, Braces.endsBody_inBody_iff, hnext, Section.substitution.injEq]
  omega

/-- As long as no brace among some tokens ends the body, blocks and marks account for the depth. -/
theorem exists_inBody_after {tokens : List Token} (hplaced : scanner.WellPlaced)
    (hdepth : 1 ≤ depth) (hpart : scanner.part = .substitution (depth + (blocks + 1)))
    (hraw : scanner.firstTokens tokens.length = tokens)
    (hend : ∀ token ∈ tokens, token.kind ≠ .endOfText)
    (hfunction : ∀ token ∈ tokens, token.kind ≠ .keyword .functionWord)
    (hopen : ∀ before close after, tokens = before ++ close :: after →
      close.kind = .punctuation .closeBrace → ¬scanner.BackAt depth (before ++ [close])) :
    ∃ blocks', (Braces.inBody blocks).Reads (tokens.map Token.kind) (.inBody blocks') ∧
      (scanner.after tokens.length).part =
        .substitution (depth + openingMarks tokens + (blocks' + 1)) := by
  induction tokens generalizing scanner depth blocks with
  | nil => exact ⟨blocks, .nil, hpart⟩
  | cons token rest ih =>
      obtain ⟨rfl, hrest⟩ := List.cons.inj hraw
      obtain ⟨hendHead, hendRest⟩ := List.forall_mem_cons.mp hend
      obtain ⟨hfunctionHead, hfunctionRest⟩ := List.forall_mem_cons.mp hfunction
      have hblocks : scanner.next.1.kind = .punctuation .closeBrace → 1 ≤ blocks := by
        intro hclose
        have hback := hopen [] scanner.next.1 rest rfl hclose
        rw [List.nil_append, Scanner.BackAt, openingMarks_singleton, if_neg (by simp [hclose]),
          Nat.add_zero] at hback
        have hends := (endsBody_iff_part_next hplaced hdepth hpart hclose).not.mpr hback
        rw [hclose, Braces.endsBody_inBody_iff] at hends
        exact Nat.one_le_iff_ne_zero.mpr hends
      obtain ⟨next, hread, hnext⟩ :=
        exists_inBody_next hplaced hpart hendHead hfunctionHead hblocks
      have hopenRest : ∀ before close after, rest = before ++ close :: after →
          close.kind = .punctuation .closeBrace →
          ¬scanner.next.2.BackAt (depth + openingMarks [scanner.next.1]) (before ++ [close]) := by
        intro before close after hsplit hclose
        rw [← Scanner.backAt_cons]
        exact hopen (scanner.next.1 :: before) close after (congrArg _ hsplit) hclose
      obtain ⟨last, hreads, hlast⟩ :=
        ih hplaced.next (by omega) hnext hrest hendRest hfunctionRest hopenRest
      refine ⟨last, .cons (Braces.takes_inBody hfunctionHead blocks) (hread ▸ hreads), ?_⟩
      rw [openingMarks_cons, ← Nat.add_assoc depth]
      exact hlast

/-- A body that is opened at a depth, and the text up to a closing brace, without a brace before it
that ends the body. -/
structure OpensBody (scanner : Scanner) (depth : Nat) (opening : Token) (inner : List Token)
    (brace : Token) : Prop where
  raw : ∃ count, scanner.firstTokens count = opening :: (inner ++ [brace])
  part : scanner.part = .substitution depth
  kind_opening : opening.kind = .punctuation .openBrace
  kind_brace : brace.kind = .punctuation .closeBrace
  no_function : ∀ token ∈ inner, token.kind ≠ .keyword .functionWord
  stays_open : ∀ before close after, inner = before ++ close :: after →
    close.kind = .punctuation .closeBrace → ¬scanner.BackAt depth (opening :: (before ++ [close]))

namespace OpensBody

variable {opening brace : Token} {inner : List Token}

/-- The same body up to an earlier brace. -/
theorem earlier (hbody : OpensBody scanner depth opening inner brace) {before after : List Token}
    {close : Token} (hsplit : inner = before ++ close :: after)
    (hclose : close.kind = .punctuation .closeBrace) :
    OpensBody scanner depth opening before close := by
  obtain ⟨count, hraw⟩ := hbody.raw
  have hfront : opening :: (inner ++ [brace]) =
      (opening :: (before ++ [close])) ++ (after ++ [brace]) := by
    rw [hsplit]
    simp
  constructor
  · exact ⟨_, (Scanner.firstTokens_of_append (hraw.trans hfront)).1⟩
  · exact hbody.part
  · exact hbody.kind_opening
  · exact hclose
  · intro token hmem
    exact hbody.no_function token (hsplit ▸ List.mem_append_left _ hmem)
  · intro first other last hbefore hother
    exact hbody.stays_open first other (last ++ close :: after) (by rw [hsplit, hbefore]; simp)
      hother

theorem reads (hbody : OpensBody scanner depth opening inner brace) :
    scanner.next.1 = opening ∧ scanner.next.2.firstTokens inner.length = inner ∧
      (scanner.next.2.after inner.length).next.1 = brace := by
  obtain ⟨count, hraw⟩ := hbody.raw
  rw [← List.cons_append] at hraw
  obtain ⟨hfront, hbrace⟩ := Scanner.firstTokens_of_append hraw
  obtain ⟨hopening, hinner⟩ := List.cons.inj hfront
  exact ⟨hopening, hinner, (List.cons.inj hbrace).1⟩

/-- No end token stands in front of the brace. -/
theorem kind_ne_endOfText (hbody : OpensBody scanner depth opening inner brace) :
    ∀ token ∈ inner, token.kind ≠ .endOfText := by
  obtain ⟨count, hraw⟩ := hbody.raw
  intro token hmem
  rw [← List.cons_append] at hraw
  apply Scanner.kind_ne_endOfText_of_before hraw
  · rw [hbody.kind_brace]
    exact Token.Kind.noConfusion
  · exact List.mem_cons_of_mem opening hmem

/-- Where no brace of a substitution is open, only the mark that opens it is read. -/
theorem one_le_depth (hplaced : scanner.WellPlaced)
    (hbody : OpensBody scanner depth opening inner brace) : 1 ≤ depth := by
  by_contra hdepth
  have hpart : scanner.part = .substitution 0 := by
    rw [hbody.part, Nat.lt_one_iff.mp (Nat.lt_of_not_le hdepth)]
  have hmark := Scanner.token_eq_tokenOf scanner (hplaced.lexeme?_of_zero hpart).2
  have hkind := congrArg Token.kind (hbody.reads.1.symm.trans hmark)
  rw [hbody.kind_opening] at hkind
  cases hkind

/-- The stack of braces and the depth of the scanner agree on whether the brace ends the body. -/
theorem exists_braces (hplaced : scanner.WellPlaced)
    (hbody : OpensBody scanner depth opening inner brace) :
    ∃ blocks, (Braces.inBody 0).Reads (inner.map Token.kind) (.inBody blocks) ∧
      ((Braces.inBody blocks).EndsBody brace.kind ↔
        scanner.BackAt depth (opening :: (inner ++ [brace]))) := by
  obtain ⟨hopening, hinner, hbrace⟩ := hbody.reads
  have hkind : scanner.next.1.kind = .punctuation .openBrace := hopening ▸ hbody.kind_opening
  have hmark : openingMarks [opening] = 0 := by
    rw [openingMarks_singleton, hbody.kind_opening]
    rfl
  have hdepth := hbody.one_le_depth hplaced
  have hpart : scanner.next.2.part = .substitution (depth + (0 + 1)) := by
    refine hplaced.part_next_of_pos hbody.part (by simp [hkind]) (by omega) ?_
    rw [hkind, Token.Kind.braceStep_openBrace]
    omega
  have hstays : ∀ before close after, inner = before ++ close :: after →
      close.kind = .punctuation .closeBrace → ¬scanner.next.2.BackAt depth (before ++ [close]) := by
    intro before close after hsplit hclose
    have hback := hbody.stays_open before close after hsplit hclose
    rwa [Scanner.backAt_cons, hmark] at hback
  obtain ⟨blocks, hreads, hlast⟩ := exists_inBody_after hplaced.next hdepth hpart hinner
    hbody.kind_ne_endOfText hbody.no_function hstays
  refine ⟨blocks, hreads, ?_⟩
  have hplacedLast := (hplaced.next.after inner.length).1
  have hends := endsBody_iff_part_next hplacedLast (by omega) hlast (hbrace ▸ hbody.kind_brace)
  rw [hbrace] at hends
  have hmarks : openingMarks (inner ++ [brace]) = openingMarks inner := by
    simp [openingMarks, hbody.kind_brace]
  rw [hends, Scanner.backAt_cons, hmark, Scanner.BackAt, hmarks, List.length_append,
    List.length_singleton, Scanner.after_succ]
  rfl

end OpensBody

end

/-! ### In a stream -/

theorem Braces.reads_body {keyword opening : Token} {header inner : List Token} {braces : Braces}
    (hkeyword : keyword.kind = .keyword .functionWord)
    (hheader : ∀ token ∈ header, token.kind.IsPlain)
    (hopening : opening.kind = .punctuation .openBrace)
    (hreads : (inBody 0).Reads (inner.map Token.kind) braces) :
    Reads {} ((keyword :: (header ++ opening :: inner)).map Token.kind) braces := by
  have hopen : (⟨[], true⟩ : Braces).Takes (.punctuation .openBrace) :=
    ⟨Token.Kind.noConfusion, (absurd · (by decide))⟩
  have hplain : Reads ⟨[], true⟩ (header.map Token.kind) ⟨[], true⟩ :=
    reads_of_isPlain (by simpa using hheader)
  rw [List.map_cons, List.map_append, List.map_cons, hkeyword, hopening]
  exact .cons ⟨fun _ => rfl, Token.Kind.noConfusion⟩ (hplain.append (.cons hopen hreads))

/-- Up to a closing brace without an end before it, layout ends the function where the depth of the
scanner is back. -/
theorem OpensBody.insertion?_iff {scanner : Scanner} (hplaced : scanner.WellPlaced) {depth : Nat}
    {keyword opening brace : Token} {header inner : List Token}
    (hbody : OpensBody scanner depth opening inner brace)
    (hkeyword : keyword.kind = .keyword .functionWord)
    (hheader : ∀ token ∈ header, token.kind.IsPlain) (state : State) :
    ((state.through (keyword :: (header ++ opening :: inner))).placement brace).insertion? =
        some (.after (.punctuation .semicolon)) ↔
      scanner.BackAt depth (opening :: (inner ++ [brace])) := by
  obtain ⟨blocks, hreads, hends⟩ := hbody.exists_braces hplaced
  have hall := Braces.reads_body hkeyword hheader hbody.kind_opening hreads
  have htakes : (Braces.inBody blocks).Takes brace.kind :=
    Braces.takes_inBody (by simp [hbody.kind_brace]) blocks
  have hafter : Braces.after ((keyword :: (header ++ opening :: inner)).map Token.kind) =
      .inBody blocks := hall.foldl_eq
  rw [← hends, ← hafter]
  exact State.functionEnd_iff (state.functions_through _) (hall.append (.cons htakes .nil)) _

namespace Stream

/-- **Functions in a substitution.** The body of a function that is opened inside a substitution of a
template ends at the first closing brace behind which the depth of the scanner is back at what it
was in front of the body, where the marks that open substitutions within the body are left out of the
count. There the semicolon is inserted, and behind no brace before. -/
theorem function_ends_in_substitution (text : String) (unicode : Bool)
    (front header : List Token) {keyword opening brace : Token} {inner : List Token} {depth : Nat}
    (hkeyword : keyword.kind = .keyword .functionWord)
    (hheader : ∀ token ∈ header, token.kind.IsPlain) :
    let scanner := Scanner.ofText text ⟨.template, unicode⟩
    let around := front ++ keyword :: header
    scanner.firstTokens around.length = around →
      OpensBody (scanner.after around.length) depth opening inner brace →
      ∃ before body insertion? last,
        (ofScanner scanner).HandsOut
            ((before ++ (body ++ [⟨brace, insertion?⟩])).flatMap Placement.tokens) last ∧
          before.map Placement.token = around ++ [opening] ∧
          body.map Placement.token = inner ∧
          (insertion? = some (.after (.punctuation .semicolon)) ↔
            (scanner.after around.length).BackAt depth (opening :: (inner ++ [brace]))) ∧
          ∀ placement ∈ body, placement.insertion? ≠ some (.after (.punctuation .semicolon)) := by
  intro scanner around haround hbody
  let state := State.through {} (around ++ [opening])
  have hplaced : (scanner.after around.length).WellPlaced :=
    ((Scanner.wellPlaced_ofText text _).after around.length).1
  have hthrough (tokens : List Token) : state.through tokens =
      (State.through {} front).through (keyword :: (header ++ opening :: tokens)) := by
    rw [← State.through_append, ← State.through_append]
    simp [around]
  have hends {tokens : List Token} {close : Token}
      (hearlier : OpensBody (scanner.after around.length) depth opening tokens close) :
      ((state.through tokens).placement close).insertion? =
          some (.after (.punctuation .semicolon)) ↔
        (scanner.after around.length).BackAt depth (opening :: (tokens ++ [close])) := by
    rw [hthrough]
    exact hearlier.insertion?_iff hplaced hkeyword hheader _
  obtain ⟨count, hraw⟩ := hbody.raw
  have htokens : scanner.firstTokens (around.length + count) =
      (around ++ [opening]) ++ (inner ++ [brace]) := by
    rw [Scanner.firstTokens_add, haround, hraw]
    simp
  obtain ⟨last, hhands, -⟩ : ∃ last, (ofScanner scanner).HandsOut
      (State.complete {} (scanner.firstTokens (around.length + count))) last ∧ _ :=
    handsOut_complete (.refl scanner) rfl (.inr rfl) _
  have hpieces : State.placements {} ((around ++ [opening]) ++ (inner ++ [brace])) =
      State.placements {} (around ++ [opening]) ++
        (state.placements inner ++ [(state.through inner).placement brace]) := by
    rw [State.placements_append {} (around ++ [opening]), State.placements_append _ inner]
    rfl
  rw [htokens, State.complete_eq_flatMap_placements, hpieces] at hhands
  refine ⟨_, state.placements inner, ((state.through inner).placement brace).insertion?, last,
    hhands, State.map_token_placements _ _, State.map_token_placements _ _, hends hbody, ?_⟩
  intro placement hmem hinsertion
  obtain ⟨before, after, hsplit⟩ := List.append_of_mem hmem
  obtain ⟨hinner, hplacement⟩ := State.eq_placement_of_split hsplit
  rw [hplacement] at hinsertion
  have hrule := (Rule.map_insertion_eq_iff .functionEnd (by decide)).mp hinsertion
  have hclose : placement.token.kind = .punctuation .closeBrace := (State.applies_of_rule? hrule).1
  exact hbody.stays_open _ _ _ hinner hclose ((hends (hbody.earlier hinner hclose)).mp hinsertion)

/-- A block in the body does not end it, and the brace behind the block does. -/
theorem function_ends_in_substitution_behind_block :
    let scanner := Scanner.ofText "$\x7bfunction()\x7b\x7b\x7d\x7d\x7d" ⟨.template, false⟩
    let block : Token :=
      { kind := .punctuation .openBrace, span := ⟨13, 14⟩, content := .text "\x7b" }
    let close : Token :=
      { kind := .punctuation .closeBrace, span := ⟨14, 15⟩, content := .text "\x7d" }
    let brace : Token :=
      { kind := .punctuation .closeBrace, span := ⟨15, 16⟩, content := .text "\x7d" }
    OpensBody (scanner.after 5) 1 (scanner.after 5).next.1 [block, close] brace ∧
      ∃ before body last,
        (ofScanner scanner).HandsOut
            ((before ++ (body ++ [⟨brace, some (.after (.punctuation .semicolon))⟩])).flatMap
              Placement.tokens) last ∧
          body.map Placement.token = [block, close] ∧
          ∀ placement ∈ body, placement.insertion? ≠ some (.after (.punctuation .semicolon)) := by
  intro scanner block close brace
  have hbody : OpensBody (scanner.after 5) 1 (scanner.after 5).next.1 [block, close] brace := by
    refine ⟨⟨4, by decide +kernel⟩, by decide +kernel, by decide +kernel, rfl, by decide, ?_⟩
    rintro (_ | ⟨first, _ | ⟨second, before⟩⟩) other after hsplit hother
    · obtain ⟨rfl, -⟩ := List.cons.inj hsplit
      cases hother
    · obtain ⟨rfl, hrest⟩ := List.cons.inj hsplit
      obtain ⟨rfl, -⟩ := List.cons.inj hrest
      decide +kernel
    · simp at hsplit
  have hkeyword : (scanner.after 2).next.1.kind = .keyword .functionWord := by decide +kernel
  obtain ⟨before, body, insertion?, last, hhands, -, htokens, hends, hothers⟩ :=
    function_ends_in_substitution "$\x7bfunction()\x7b\x7b\x7d\x7d\x7d" false
      (scanner.firstTokens 2) ((scanner.after 3).firstTokens 2) hkeyword (by decide +kernel)
      (by decide +kernel) hbody
  have hback : (scanner.after 5).BackAt 1
      ((scanner.after 5).next.1 :: ([block, close] ++ [brace])) := by decide +kernel
  rw [hends.mpr hback] at hhands
  exact ⟨hbody, before, body, last, hhands, htokens, hothers⟩

/-- With another mark of a substitution in the body, the semicolon comes behind a brace that leaves
the body open, and not behind the one that closes it. -/
theorem function_ended_within_body :
    let text := "$\x7bfunction f()\x7b$\x7bx\x7d\x7d\x7d"
    let scanner := Scanner.ofText text ⟨.template, false⟩
    let opening : Token :=
      { kind := .punctuation .openBrace, span := ⟨14, 15⟩, content := .text "\x7b" }
    let close (start : Nat) : Token :=
      { kind := .punctuation .closeBrace, span := ⟨start, start + 1⟩, content := .text "\x7d" }
    (scanner.after 6).part = .substitution 1 ∧ (scanner.after 6).next.1 = opening ∧
      (scanner.after 9).next.1 = close 18 ∧ (scanner.after 10).part = .substitution 2 ∧
      (scanner.after 10).next.1 = close 19 ∧ (scanner.after 11).part = .substitution 1 ∧
      (ofText text ⟨.template, false⟩).tokens =
        scanner.firstTokens 9 ++ [close 18, .inserted (.punctuation .semicolon) 19, close 19,
          close 20, { kind := .endOfText, span := .empty 21 }] := by
  decide +kernel

end Stream

end Layout

end FormulaScript
