import Offside.Grammar.Program

/-! # Outlines

The outline of a tree keeps the stretches of source that its nodes and names were read from. Words
are what an outline takes up: the tokens of a source text other than blanks and line breaks. A node
goes from the first of its words to the last, with its parts in order between them; a tree may stand
in parentheses, which belong to no node of it.
-/

namespace Offside

/-- Where the nodes and names of a tree were read. -/
inductive Outline where
  | name (text : String) (span : Span)
  | node (span : Span) (parts : List Outline)

/-- A stretch of source goes from the start of the first of some words to the end of the last. -/
def Span.GoesOver (span : Span) (words : List Token) : Prop :=
  words.head?.map (fun word => word.span.start) = some span.start ∧
    words.getLast?.map (fun word => word.span.stop) = some span.stop

/-- What goes over words starts where one of them does, and ends where one of them does. -/
theorem Span.GoesOver.exists_ends {span : Span} {words : List Token} (h : span.GoesOver words) :
    ∃ first ∈ words, ∃ last ∈ words, first.span.start = span.start ∧ last.span.stop = span.stop := by
  obtain ⟨starts, ends⟩ := h
  obtain ⟨first, head, start⟩ := Option.map_eq_some_iff.1 starts
  obtain ⟨last, final, stop⟩ := Option.map_eq_some_iff.1 ends
  exact ⟨first, List.mem_of_head? head, last, List.mem_of_getLast? final, start, stop⟩

/-- A stretch of source that goes on to the end of another one behind it. -/
theorem Span.GoesOver.join {span other : Span} {front middle back : List Token}
    (h : span.GoesOver front) (h' : other.GoesOver back) :
    (Span.mk span.start other.stop).GoesOver (front ++ (middle ++ back)) := by
  obtain ⟨starts, -⟩ := h
  obtain ⟨-, ends⟩ := h'
  constructor
  · cases front with
    | nil => cases starts
    | cons first rest => exact starts
  · cases last : back.getLast? with
    | none => simp [last] at ends
    | some word =>
        rw [last] at ends
        simpa [List.getLast?_append, last] using ends

namespace Outline

/-- The stretch of source of the whole tree. -/
def span : Outline → Span
  | name _ span | node span _ => span

mutual

/-- What an outline is of takes up some words, and no others. -/
def Covers : Outline → List Token → Prop
  | name text span, words => ∃ word, words = [word] ∧ word.kind = .identifier ∧
    word.value = text ∧ word.span = span
  | node span parts, words => span.GoesOver words ∧ LieIn parts words

/-- What some outlines are of takes up some of the words, one after the other. -/
def LieIn : List Outline → List Token → Prop
  | [], _ => True
  | outline :: rest, words => ∃ front own back, words = front ++ (own ++ back) ∧
    outline.Covers own ∧ LieIn rest back

end

/-- What an outline is of is what some words start with, but for opening parentheses. -/
def Over (outline : Outline) (words : List Token) : Prop :=
  ∃ parens own back, words = parens ++ (own ++ back) ∧
    (∀ paren ∈ parens, paren.kind = .openParen) ∧ outline.Covers own

variable {outline left right : Outline} {parts others : List Outline} {span : Span}
  {words more front back : List Token} {token : Token}

theorem Covers.goesOver (h : outline.Covers words) : outline.span.GoesOver words := by
  cases outline with
  | name text span =>
      rw [Covers] at h
      obtain ⟨word, rfl, -, -, rfl⟩ := h
      exact ⟨rfl, rfl⟩
  | node span parts =>
      rw [Covers] at h
      exact h.1

theorem Covers.toOver (h : outline.Covers words) : outline.Over words :=
  ⟨[], words, [], by simp, List.forall_mem_nil _, h⟩

theorem LieIn.nil : LieIn [] words := by
  rw [LieIn]
  trivial

theorem LieIn.prepend (h : LieIn parts words) (front : List Token) :
    LieIn parts (front ++ words) := by
  cases parts with
  | nil => exact .nil
  | cons outline rest =>
      rw [LieIn] at h ⊢
      obtain ⟨before, own, behind, rfl, covers, others⟩ := h
      exact ⟨front ++ before, own, behind, by simp, covers, others⟩

/-- Some outlines lie in front of others if their words do. -/
theorem LieIn.append (h : LieIn parts words) (h' : LieIn others more) :
    LieIn (parts ++ others) (words ++ more) := by
  induction parts generalizing words with
  | nil => exact h'.prepend _
  | cons outline rest ih =>
      rw [LieIn] at h
      obtain ⟨before, own, behind, rfl, covers, lie⟩ := h
      rw [List.cons_append, LieIn]
      exact ⟨before, own, behind ++ more, by simp, covers, ih lie⟩

theorem LieIn.extend (h : LieIn parts words) : LieIn parts (words ++ more) := by
  have both : LieIn (parts ++ []) (words ++ more) := h.append .nil
  rwa [List.append_nil] at both

theorem LieIn.of_covers (h : outline.Covers words) : LieIn [outline] words := by
  rw [LieIn]
  exact ⟨[], words, [], by simp, h, .nil⟩

theorem LieIn.of_over (h : outline.Over words) : LieIn [outline] words := by
  obtain ⟨parens, own, back, rfl, -, covers⟩ := h
  exact (LieIn.of_covers covers).extend.prepend _

theorem covers_name (kind : token.kind = .identifier) :
    (name token.value token.span).Covers [token] := by
  rw [Covers]
  exact ⟨token, rfl, kind, rfl, rfl⟩

theorem covers_node (h : span.GoesOver words) (h' : LieIn parts words) :
    (node span parts).Covers words := by
  rw [Covers]
  exact ⟨h, h'⟩

theorem covers_token (token : Token) : (node token.span []).Covers [token] :=
  covers_node ⟨rfl, rfl⟩ .nil

/-- A node loses its parts. -/
theorem Over.leaf (h : (node span parts).Over words) : (node span []).Over words := by
  obtain ⟨parens, own, back, rfl, opening, covers⟩ := h
  exact ⟨parens, own, back, rfl, opening, covers_node covers.goesOver .nil⟩

/-- What stands in parentheses starts behind them. -/
theorem Over.grouped (h : outline.Over words) (paren : token.kind = .openParen) :
    outline.Over (token :: (words ++ more)) := by
  obtain ⟨parens, own, back, rfl, opening, covers⟩ := h
  refine ⟨token :: parens, own, back ++ more, by simp, ?_, covers⟩
  exact List.forall_mem_cons.2 ⟨paren, opening⟩

/-- A node that goes from the start of a tree on to the end of more words. -/
theorem Over.followed (h : left.Over words) (h' : LieIn parts more) (stop : Position)
    (ends : more.getLast?.map (fun word => word.span.stop) = some stop) :
    (node ⟨left.span.start, stop⟩ (left :: parts)).Over (words ++ more) := by
  obtain ⟨parens, own, back, rfl, opening, covers⟩ := h
  refine ⟨parens, own ++ (back ++ more), [], by simp, opening, covers_node ⟨?_, ?_⟩ ?_⟩
  · have starts := covers.goesOver.1
    cases own with
    | nil => cases starts
    | cons first others => simpa using starts
  · cases last : more.getLast? with
    | none => simp [last] at ends
    | some word =>
        rw [last] at ends
        simpa [List.getLast?_append, last] using ends
  · exact (LieIn.of_covers covers).append (h'.prepend _)

/-- A node that goes from the start of a word to the end of a tree behind it. -/
theorem Over.signed (h : right.Over words) :
    (node ⟨token.span.start, right.span.stop⟩ [right]).Over (token :: words) := by
  obtain ⟨parens, own, back, rfl, -, covers⟩ := h
  have reaches : (Span.mk token.span.start right.span.stop).GoesOver ([token] ++ (parens ++ own)) :=
    (covers_token token).goesOver.join covers.goesOver
  exact ⟨[], [token] ++ (parens ++ own), back, by simp, List.forall_mem_nil _,
    covers_node reaches (((LieIn.of_covers covers).prepend _).prepend _)⟩

/-- A node that goes from the start of one tree to the end of another. -/
theorem Over.binary (h : left.Over words) (h' : right.Over more) :
    (node ⟨left.span.start, right.span.stop⟩ [left, right]).Over (words ++ token :: more) := by
  obtain ⟨parens, own, back, rfl, opening, covers⟩ := h
  obtain ⟨parens', own', back', rfl, -, covers'⟩ := h'
  have reaches : (Span.mk left.span.start right.span.stop).GoesOver
      (own ++ ((back ++ token :: parens') ++ own')) :=
    covers.goesOver.join covers'.goesOver
  have lie : LieIn [left, right] (own ++ ((back ++ token :: parens') ++ own')) :=
    (LieIn.of_covers covers).append ((LieIn.of_covers covers').prepend _)
  exact ⟨parens, _, back', by simp, opening, covers_node reaches lie⟩

/-- A tree as the only part of a node. -/
theorem Over.single (h : outline.Over words) : (node outline.span [outline]).Over words := by
  obtain ⟨parens, own, back, rfl, opening, covers⟩ := h
  exact ⟨parens, own, back, rfl, opening, covers_node covers.goesOver (LieIn.of_covers covers)⟩

/-- A node that goes on to the end of one more part. -/
theorem Over.snoc (h : (node span parts).Over words) (h' : right.Over more) :
    (node ⟨span.start, right.span.stop⟩ (parts ++ [right])).Over (words ++ more) := by
  obtain ⟨parens, own, back, rfl, opening, covers⟩ := h
  obtain ⟨parens', own', back', rfl, -, covers'⟩ := h'
  have reaches : (Span.mk span.start right.span.stop).GoesOver
      (own ++ ((back ++ parens') ++ own')) :=
    covers.goesOver.join covers'.goesOver
  rw [Covers] at covers
  exact ⟨parens, _, back', by simp, opening,
    covers_node reaches (covers.2.append ((LieIn.of_covers covers').prepend _))⟩

end Outline

section Trees

/-- The outline of a name. -/
def Name.outline (name : Name) : Outline :=
  .name name.text name.span

mutual

/-- The outline of an expression. A variable is a name. -/
def Expr.outline : Expr → Outline
  | .literal _ span => .node span []
  | .array values span => .node span (Expr.outlines values)
  | .reference name span => .name name span
  | .binary _ left right span => .node span [left.outline, right.outline]
  | .unary _ operand span => .node span [operand.outline]
  | .call callee args span => .node span (callee.outline :: Arg.outlines args)
  | .method receiver callee args span =>
    .node span (receiver.outline :: callee.outline :: Arg.outlines args)
  | .property receiver member span => .node span [receiver.outline, member.outline]

/-- The outlines of some expressions. -/
def Expr.outlines : List Expr → List Outline
  | [] => []
  | value :: rest => value.outline :: Expr.outlines rest

/-- The outlines of the labels and values of some arguments. -/
def Arg.outlines : List Arg → List Outline
  | [] => []
  | ⟨label, value⟩ :: rest => label.outline :: value.outline :: Arg.outlines rest

end

theorem Expr.outlines_eq_map (values : List Expr) :
    Expr.outlines values = values.map Expr.outline := by
  induction values with
  | nil => rfl
  | cons value rest ih => rw [Expr.outlines, ih, List.map_cons]

theorem Arg.outlines_eq_flatMap (args : List Arg) :
    Arg.outlines args = args.flatMap fun arg => [arg.label.outline, arg.value.outline] := by
  induction args with
  | nil => rfl
  | cons arg rest ih =>
      cases arg with
      | mk label value => rw [Arg.outlines, ih, List.flatMap_cons]; rfl

@[simp] theorem Expr.outline_span (expr : Expr) : expr.outline.span = expr.span := by
  cases expr <;> simp only [Expr.outline, Outline.span, Expr.span]

/-- The outline of a declaration. -/
def VarDecl.outline (decl : VarDecl) : Outline :=
  .node decl.span (decl.init.toList.map Expr.outline)

variable (decls : Array VarDecl)

/-- The outline of the declaration with a given handle. One that leads nowhere is nowhere. -/
def VarId.outline (id : VarId) : Outline :=
  (decls[id.index]?.map VarDecl.outline).getD (.node ⟨.null, .null⟩ [])

mutual

/-- The outline of a statement. -/
def Stmt.outline : Stmt → Outline
  | .block body => body.outline
  | .returns value span => .node span [value.outline]
  | .branch branches otherwise span =>
    .node span (Branch.outlines branches ++ Block.optionOutlines otherwise)
  | .forLoop init condition step body span =>
    .node span [init.outline decls, condition.outline, step.outline, body.outline]
  | .whileLoop condition body span => .node span [condition.outline, body.outline]
  | .expression value => value.outline
  | .declare decl span => .node span [decl.outline decls]
  | .breakLoop span | .continueLoop span => .node span []

/-- The outline of a block. -/
def Block.outline : Block → Outline
  | ⟨body, span⟩ => .node span (Stmt.outlines body)

/-- The outlines of some statements. -/
def Stmt.outlines : List Stmt → List Outline
  | [] => []
  | stmt :: rest => stmt.outline :: Stmt.outlines rest

/-- The outlines of the conditions and blocks of some branches. -/
def Branch.outlines : List Branch → List Outline
  | [] => []
  | ⟨condition, body⟩ :: rest => condition.outline :: body.outline :: Branch.outlines rest

/-- The outline of a block that may be missing. -/
def Block.optionOutlines : Option Block → List Outline
  | none => []
  | some body => [body.outline]

end

/-- The outline of a parameter. -/
def Param.outline (param : Param) : Outline :=
  .node param.span [param.decl.outline decls]

/-- The outline of a signature. -/
def Signature.outline (signature : Signature) : Outline :=
  .node signature.span (signature.params.map (Param.outline decls))

/-- The outline of a function. -/
def Function.outline (function : Function) : Outline :=
  .node function.span [function.signature.outline decls, function.body.outline decls]

/-- The outline of a member of a record type. -/
def Parse.Member.outline : Parse.Member → Outline
  | .property id => id.outline decls
  | .method function => function.outline decls

/-- The outline of a record type with its members in a given order. -/
def RecordDecl.outline (record : RecordDecl) (members : List Parse.Member) : Outline :=
  .node record.span
    (record.parent.toList.map Name.outline ++ members.map (Parse.Member.outline decls))

theorem Stmt.outlines_eq_map (stmts : List Stmt) :
    Stmt.outlines decls stmts = stmts.map (Stmt.outline decls) := by
  induction stmts with
  | nil => rfl
  | cons stmt rest ih => rw [Stmt.outlines, ih, List.map_cons]

theorem Branch.outlines_eq_flatMap (branches : List Branch) :
    Branch.outlines decls branches =
      branches.flatMap fun branch => [branch.condition.outline, branch.body.outline decls] := by
  induction branches with
  | nil => rfl
  | cons branch rest ih =>
      cases branch with
      | mk condition body => rw [Branch.outlines, ih, List.flatMap_cons]; rfl

@[simp] theorem Block.outline_span (block : Block) : (block.outline decls).span = block.span := by
  cases block
  simp only [Block.outline, Outline.span]

@[simp] theorem Stmt.outline_span (stmt : Stmt) : (stmt.outline decls).span = stmt.span := by
  cases stmt with
  | block body => rw [Stmt.outline, Block.outline_span, Stmt.span]
  | expression value => rw [Stmt.outline, Expr.outline_span, Stmt.span]
  | _ => simp only [Stmt.outline, Outline.span, Stmt.span]

end Trees

end Offside
