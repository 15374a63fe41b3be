import FormulaScript.Proofs.Lexeme.Boundary

/-!
# Quoted text and its contents

The contents of quoted text are what was written with the escapes taken out, and putting the escapes
back in gives the spelling. The other way round, the contents that are read from what was written are
the ones that were meant, up to the closing mark and no further. Three things could get in the way,
one for each mark: a single mark cannot be written at all, a double mark behind the closing one would
make the two an escaped mark, and so would a backslash in front of a closing backtick.
-/

namespace FormulaScript

/-- The contents can be written between two marks, in front of a rest. -/
structure Quote.Writes (quote : Quote) (contents rest : List Char) : Prop where
  single : quote = .single → quote.mark ∉ contents
  double : quote = .double → rest.head? ≠ some quote.mark
  backtick : quote = .backtick → contents.getLast? ≠ some '\\'

namespace Quote

theorem encode_mark (quote : Quote) (rest : List Char) :
    quote.encode (quote.mark :: rest) = quote.escape?.toList ++ quote.mark :: quote.encode rest := by
  rw [encode, if_pos rfl]

theorem encode_other {quote : Quote} {c : Char} (hc : c ≠ quote.mark) (rest : List Char) :
    quote.encode (c :: rest) = c :: quote.encode rest := by
  rw [encode, if_neg hc]

/-- Between single marks nothing is escaped. -/
theorem encode_single (contents : List Char) : single.encode contents = contents := by
  induction contents with
  | nil => rfl
  | cons c contents ih =>
      rw [encode, ih]
      exact ite_self (c :: contents)

variable {quote : Quote} {contents rest : List Char} {c : Char}

theorem Writes.tail (hwrites : quote.Writes (c :: contents) rest) :
    quote.Writes contents rest := by
  constructor
  · exact fun hquote hmem => hwrites.single hquote (List.mem_cons_of_mem c hmem)
  · exact hwrites.double
  · intro hquote hlast
    apply hwrites.backtick hquote
    rw [List.getLast?_cons, hlast]
    rfl

/-- Only single marks have no escape, and these are not written. -/
theorem Writes.exists_escape (hwrites : quote.Writes (quote.mark :: contents) rest) :
    ∃ escape, quote.escape? = some escape := by
  cases quote with
  | double => exact ⟨_, rfl⟩
  | single => exact absurd List.mem_cons_self (hwrites.single rfl)
  | backtick => exact ⟨_, rfl⟩

/-- The closing mark does not escape what follows it. -/
theorem Writes.not_escapes_mark (hwrites : quote.Writes contents rest) :
    ¬quote.Escapes quote.mark rest := by
  rintro ⟨hescape, hhead⟩
  cases quote with
  | double => exact hwrites.double rfl hhead
  | single => cases hescape
  | backtick => exact absurd hescape (by decide)

/-- Where marks are escaped by another character, what is written does not begin with a mark. -/
theorem head?_encode_cons_ne_mark {escape : Char} (hescape : quote.escape? = some escape)
    (hne : escape ≠ quote.mark) (c : Char) (contents rest : List Char) :
    (quote.encode (c :: contents) ++ rest).head? ≠ some quote.mark := by
  by_cases hc : c = quote.mark
  · rw [hc, encode_mark, hescape]
    exact fun hhead => hne (Option.some.inj hhead)
  · rw [encode_other hc]
    exact fun hhead => hc (Option.some.inj hhead)

/-- A character of the contents does not escape what is written behind it. -/
theorem Writes.not_escapes (hwrites : quote.Writes (c :: contents) rest) (hc : c ≠ quote.mark) :
    ¬quote.Escapes c (quote.encode contents ++ quote.mark :: rest) := by
  rintro ⟨hescape, hhead⟩
  cases quote with
  | double => exact hc (Option.some.inj hescape).symm
  | single => cases hescape
  | backtick =>
      cases contents with
      | nil => exact hwrites.backtick rfl hescape.symm
      | cons next contents => exact head?_encode_cons_ne_mark rfl (by decide) _ _ _ hhead

end Quote

namespace Quoted

/-- The spelling is the contents with their escapes, and the closing mark if there is one. -/
theorem spelling_read (quote : Quote) (characters : List Char) :
    (read quote characters).spelling =
      quote.encode (read quote characters).contents ++
        if (read quote characters).closed then [quote.mark] else [] := by
  fun_induction read quote characters with
  | case1 => rfl
  | case2 => rfl
  | case3 c hmark =>
      rw [Quote.encode_other hmark]
      rfl
  | case4 c next rest hboth ih =>
      rw [cons, Quote.encode_mark, hboth.1, hboth.2, ih]
      simp
  | case5 => rfl
  | case6 c next rest _ hmark ih =>
      rw [cons, Quote.encode_other hmark, ih]
      rfl

theorem mark_notMem_contents_of_single (characters : List Char) :
    Quote.single.mark ∉ (read .single characters).contents := by
  fun_induction read .single characters with
  | case1 => exact List.not_mem_nil
  | case2 => exact List.not_mem_nil
  | case3 c hmark => exact fun hmem => hmark (List.mem_singleton.mp hmem).symm
  | case4 c next rest hboth => cases hboth.1
  | case5 => exact List.not_mem_nil
  | case6 c next rest _ hmark ih =>
      rw [cons, List.mem_cons, not_or]
      exact ⟨Ne.symm hmark, ih⟩

/-- What was written is read as what was meant. -/
theorem read_encode {quote : Quote} {contents rest : List Char}
    (hwrites : quote.Writes contents rest) :
    read quote (quote.encode contents ++ quote.mark :: rest) =
      ⟨contents, quote.encode contents ++ [quote.mark], true⟩ := by
  induction contents with
  | nil => exact read_mark hwrites.not_escapes_mark
  | cons c contents ih =>
      by_cases hc : c = quote.mark
      · subst hc
        obtain ⟨escape, hescape⟩ := hwrites.exists_escape
        rw [Quote.encode_mark, hescape]
        change read quote (escape :: quote.mark :: (quote.encode contents ++ quote.mark :: rest)) = _
        rw [read_escape hescape, ih hwrites.tail]
        rfl
      · rw [Quote.encode_other hc, List.cons_append, read_other (hwrites.not_escapes hc) hc,
          ih hwrites.tail]
        rfl

/-! ### The lexeme at the front of a text -/

theorem first?_mark (quote : Quote) (rest : List Char) :
    first? (quote.mark :: rest) = some ((read quote rest).lexeme quote) := by
  cases quote <;> rfl

theorem exists_of_first? {front : List Char} {lexeme : Lexeme}
    (hfirst : first? front = some lexeme) :
    ∃ quote rest, front = quote.mark :: rest ∧ lexeme = (read quote rest).lexeme quote := by
  match front with
  | [] => cases hfirst
  | c :: rest =>
      obtain ⟨quote, hquote, rfl⟩ := Option.map_eq_some_iff.mp hfirst
      have hmark : quote.mark = c := by simpa using List.find?_some hquote
      exact ⟨quote, rest, congrArg (· :: rest) hmark.symm, rfl⟩

end Quoted

namespace Lexeme

def IsQuoted (lexeme : Lexeme) : Prop :=
  lexeme.kind = .literal .string ∨ lexeme.kind = .literal .template

theorem not_isQuoted_of_number? {front : List Char} {lexeme : Lexeme}
    (hnumber : number? front = some lexeme) : ¬lexeme.IsQuoted := by
  unfold number? at hnumber
  split_ifs at hnumber
  split at hnumber
  · rename_i literal _
    obtain rfl := Option.some.inj hnumber
    simp only [IsQuoted, HexLiteral.lexeme]
    cases literal.isLong <;> decide
  · obtain rfl := Option.some.inj hnumber
    simp [IsQuoted, DecimalLiteral.lexeme]

theorem not_isQuoted_classify (run rest : List Char) : ¬(Word.classify run rest).IsQuoted := by
  unfold Word.classify
  split
  · simp [IsQuoted, verbatim]
  · split <;> simp [IsQuoted, verbatim]

theorem quoted_first?_of_isQuoted {options : Options} {front : List Char} {lexeme : Lexeme}
    (hfirst : first? options front = some lexeme) (hquoted : lexeme.IsQuoted) :
    Quoted.first? front = some lexeme := by
  rcases first?_cases hfirst with hnumber | hread | ⟨operator, -, rfl⟩ | hword
  · exact absurd hquoted (not_isQuoted_of_number? hnumber)
  · exact hread
  · rcases hquoted with hkind | hkind <;> cases hkind
  · obtain ⟨run, -, rfl⟩ := Option.map_eq_some_iff.mp hword
    exact absurd hquoted (not_isQuoted_classify _ _)

/-- A mark is neither part of a number nor of an operator, so quoted text begins at it. -/
theorem first?_mark (options : Options) (quote : Quote) (rest : List Char) :
    first? options (quote.mark :: rest) = some ((Quoted.read quote rest).lexeme quote) := by
  have hnumber : number? (quote.mark :: rest) = none := by
    cases quote <;> rfl
  rw [first?, hnumber, Quoted.first?_mark]
  rfl

end Lexeme

end FormulaScript
