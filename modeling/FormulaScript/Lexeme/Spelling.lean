import FormulaScript.Lexeme.First

/-!
A lexeme is spelled by what stands at the front of the text, and it is spelled by at least one
character.
-/

namespace FormulaScript

theorem takeWhile_append_isPrefix {keep : Char → Bool} {characters back : List Char}
    (hback : back <+: characters.dropWhile keep) :
    characters.takeWhile keep ++ back <+: characters := by
  have hprefix := (List.prefix_append_right_inj (characters.takeWhile keep)).mpr hback
  rwa [List.takeWhile_append_dropWhile] at hprefix

theorem toList_head?_isPrefix (characters : List Char) :
    characters.head?.toList <+: characters := by
  cases characters <;> simp

theorem toList_filter_isPrefix {keep : Char → Bool} (c? : Option Char) :
    (c?.filter keep).toList <+: c?.toList := by
  cases c? with
  | none => simp
  | some c => by_cases hkeep : keep c <;> simp [Option.filter, hkeep]

theorem Quoted.spelling_read_isPrefix (quote : Quote) (characters : List Char) :
    (read quote characters).spelling <+: characters := by
  fun_induction read quote characters with
  | case1 => simp
  | case2 => simp
  | case3 => simp
  | case4 c next rest hescape ih => simpa [cons, hescape.2] using ih
  | case5 => simp
  | case6 c next rest _ _ ih => simpa [cons] using ih

theorem Quoted.spelling_isPrefix_of_first? {characters : List Char} {lexeme : Lexeme}
    (hfirst : first? characters = some lexeme) : lexeme.spelling <+: characters := by
  match characters with
  | [] => simp [first?] at hfirst
  | c :: rest =>
      obtain ⟨quote, hquote, rfl⟩ := Option.map_eq_some_iff.mp hfirst
      have hmark : quote.mark = c := by simpa using List.find?_some hquote
      simpa [Quoted.lexeme, hmark] using spelling_read_isPrefix quote rest

theorem Quoted.spelling_ne_nil_of_first? {characters : List Char} {lexeme : Lexeme}
    (hfirst : first? characters = some lexeme) : lexeme.spelling ≠ [] := by
  match characters with
  | [] => simp [first?] at hfirst
  | c :: rest =>
      obtain ⟨quote, _, rfl⟩ := Option.map_eq_some_iff.mp hfirst
      simp [Quoted.lexeme]

theorem Exponent.spelling_first?_isPrefix (characters : List Char) :
    (first? characters).elim [] spelling <+: characters := by
  match characters with
  | [] => simp [first?]
  | c :: rest =>
      by_cases hmark : isMark c
      · simp only [first?, hmark, if_true, Option.elim_some, spelling, List.cons_prefix_cons,
          true_and]
        exact takeWhile_append_isPrefix (List.takeWhile_prefix _)
      · simp [first?, hmark]

theorem DecimalLiteral.spelling_first_isPrefix (characters : List Char) :
    (first characters).spelling <+: characters := by
  unfold first spelling
  rw [List.append_assoc]
  split <;> rename_i rest hrest
  · refine takeWhile_append_isPrefix ?_
    rw [hrest]
    simpa using takeWhile_append_isPrefix (Exponent.spelling_first?_isPrefix _)
  · refine takeWhile_append_isPrefix ?_
    simpa using Exponent.spelling_first?_isPrefix (characters.dropWhile Text.isDigit)

theorem DecimalLiteral.spelling_first_ne_nil {characters : List Char}
    (hbegins : Lexeme.beginsNumber characters) : (first characters).spelling ≠ [] := by
  match characters with
  | [] => simp [Lexeme.beginsNumber] at hbegins
  | c :: rest =>
      by_cases hdigit : Text.isDigit c
      · unfold first spelling
        split <;> simp [hdigit]
      · obtain ⟨next, back, rfl, rfl⟩ : ∃ next back, c = '.' ∧ rest = next :: back := by
          unfold Lexeme.beginsNumber at hbegins
          split at hbegins <;> simp_all
        simp [first, spelling, Text.isDigit]

theorem HexLiteral.spelling_isPrefix_of_first? {characters : List Char} {literal : HexLiteral}
    (hfirst : first? characters = some literal) : literal.spelling <+: characters := by
  unfold first? at hfirst
  split at hfirst
  · split at hfirst
    · obtain rfl := Option.some.inj hfirst
      simp only [spelling, List.cons_prefix_cons, true_and]
      exact takeWhile_append_isPrefix
        ((toList_filter_isPrefix _).trans (toList_head?_isPrefix _))
    · simp at hfirst
  · simp at hfirst

theorem Lexeme.spelling_isPrefix_of_number? {characters : List Char} {lexeme : Lexeme}
    (hnumber : number? characters = some lexeme) :
    lexeme.spelling <+: characters ∧ lexeme.spelling ≠ [] := by
  unfold number? at hnumber
  split at hnumber
  · rename_i hbegins
    split at hnumber
    · rename_i literal hliteral
      obtain rfl := Option.some.inj hnumber
      exact ⟨HexLiteral.spelling_isPrefix_of_first? hliteral, by
        simp [HexLiteral.lexeme, HexLiteral.spelling]⟩
    · obtain rfl := Option.some.inj hnumber
      exact ⟨DecimalLiteral.spelling_first_isPrefix characters,
        DecimalLiteral.spelling_first_ne_nil hbegins⟩
  · simp at hnumber

theorem Operator.spelling_ne_nil {mode : Mode} {operator : Operator}
    (hmem : operator ∈ spellings mode) : operator.spelling ≠ [] := by
  have hall : ∀ mode, ∀ operator ∈ spellings mode, operator.spelling ≠ [] := by
    intro mode
    cases mode <;> decide
  exact hall mode operator hmem

theorem Operator.spelling_isPrefix_of_first? {mode : Mode} {characters : List Char}
    {operator : Operator} (hfirst : first? mode characters = some operator) :
    operator.spelling <+: characters := by
  have hbegins := List.find?_some hfirst
  simp only [begins, Bool.and_eq_true, List.isPrefixOf_iff_prefix] at hbegins
  exact hbegins.1

variable [Text.Letters]

theorem Word.run?_isPrefix {unicode : Bool} {characters run : List Char}
    (hrun : run? unicode characters = some run) : run <+: characters ∧ run ≠ [] := by
  match characters with
  | [] => simp [run?] at hrun
  | c :: rest =>
      simp only [run?] at hrun
      split at hrun
      · obtain rfl := Option.some.inj hrun
        simpa using List.takeWhile_prefix _
      · simp at hrun

omit [Text.Letters] in
theorem Word.spelling_classify (run rest : List Char) :
    (classify run rest).spelling = run ∨
      (classify run rest).spelling = run ++ [':'] ∧ rest.head? = some ':' := by
  unfold classify
  split
  · exact .inl rfl
  · split
    · rename_i hcolon
      exact .inr ⟨rfl, hcolon.2⟩
    · exact .inl rfl

theorem Word.spelling_isPrefix_of_first? {unicode : Bool} {characters : List Char}
    {lexeme : Lexeme} (hfirst : first? unicode characters = some lexeme) :
    lexeme.spelling <+: characters ∧ lexeme.spelling ≠ [] := by
  obtain ⟨run, hrun, rfl⟩ := Option.map_eq_some_iff.mp hfirst
  obtain ⟨⟨rest, rfl⟩, hne⟩ := run?_isPrefix hrun
  rcases spelling_classify run ((run ++ rest).drop run.length) with hplain | ⟨hcolon, hhead⟩
  · rw [hplain]
    exact ⟨List.prefix_append _ _, hne⟩
  · rw [hcolon]
    rw [List.drop_left] at hhead
    refine ⟨(List.prefix_append_right_inj run).mpr ?_, by simp⟩
    simpa [hhead] using toList_head?_isPrefix rest

theorem Lexeme.first?_cases {options : Options} {characters : List Char} {lexeme : Lexeme}
    (hfirst : first? options characters = some lexeme) :
    number? characters = some lexeme ∨ Quoted.first? characters = some lexeme ∨
      (∃ operator, Operator.first? options.mode characters = some operator ∧
        operator.lexeme = lexeme) ∨
      Word.first? options.unicodeIdentifiers characters = some lexeme := by
  simp only [first?, Option.orElse_eq_orElse, Option.orElse_eq_or, Option.or_eq_some_iff,
    Option.map_eq_some_iff] at hfirst
  grind

theorem Lexeme.spelling_isPrefix_of_first? {options : Options} {characters : List Char}
    {lexeme : Lexeme} (hfirst : first? options characters = some lexeme) :
    lexeme.spelling <+: characters := by
  rcases first?_cases hfirst with hnumber | hquoted | ⟨operator, hoperator, rfl⟩ | hword
  · exact (spelling_isPrefix_of_number? hnumber).1
  · exact Quoted.spelling_isPrefix_of_first? hquoted
  · exact Operator.spelling_isPrefix_of_first? hoperator
  · exact (Word.spelling_isPrefix_of_first? hword).1

theorem Lexeme.spelling_ne_nil_of_first? {options : Options} {characters : List Char}
    {lexeme : Lexeme} (hfirst : first? options characters = some lexeme) :
    lexeme.spelling ≠ [] := by
  rcases first?_cases hfirst with hnumber | hquoted | ⟨operator, hoperator, rfl⟩ | hword
  · exact (spelling_isPrefix_of_number? hnumber).2
  · exact Quoted.spelling_ne_nil_of_first? hquoted
  · exact Operator.spelling_ne_nil (List.mem_of_find?_eq_some hoperator)
  · exact (Word.spelling_isPrefix_of_first? hword).2

end FormulaScript
