import SearchCompiler.Clause
import SearchCompiler.Compile.Error
import SearchCompiler.Decimal.Style
import SearchCompiler.Keys.Expression

/-!
# Flattened keys

Keys become one query over a list of target fields. In the mode of terms every term has to be found
in some field, and fields that hold them all count for themselves; a phrase is found as a whole in
one field. Blank terms and groups without terms add nothing.
-/

namespace SearchCompiler

/-- Whether a character begins the suffix of a target field. -/
def Target.isMark (c : Char) : Bool := c == '^' || c == '~'

/-- The suffix of a field whose matches count once. -/
def Target.plainSuffix : String := "^1"

/-- A target field from a name that may end in a suffix; the last mark begins it, unless nothing
stands in front of it. -/
def Target.ofText (text : String) : Target :=
  let reversed := text.toList.reverse
  let tail := reversed.takeWhile fun c => !isMark c
  match reversed.dropWhile fun c => !isMark c with
  | mark :: c :: rest =>
    ⟨String.ofList (c :: rest).reverse, String.ofList (mark :: tail.reverse)⟩
  | _ => ⟨text, plainSuffix⟩

/-- A target field whose matches count by a boost. -/
def Target.boosted (name : String) (boost : Option Float32) : Target :=
  ⟨name, match boost with
    | some b => "^" ++ Decimal.Style.plain.single b
    | none => plainSuffix⟩

end SearchCompiler

namespace SearchCompiler.Keys

/-- Where keys are searched, and how. -/
structure Flattening where
  targets : List Target
  mode : Mode

namespace Flattening

/-- The clause of a term, unless it is blank. -/
def literal (mode : Mode) (escaped : Bool) (text : String) : Option Clause :=
  if Text.isBlankText text then none
  else
    let trimmed := Text.trimText text
    some (.atom (if escaped then .raw trimmed else
      match mode with
      | .terms | .edismax => .term trimmed
      | .phrase => .phrase trimmed
      | .direct => .raw trimmed))

/-- A clause as a member under a conjunction. -/
def under (conjunction : Conjunction) (c : Clause) : Clause :=
  match conjunction with
  | .and => c.must
  | .or => c

def onTarget (c : Clause) (t : Target) : Clause :=
  .onField t.name c t.suffix

/-- The clauses of the terms of one group. Next to nested groups the alternatives of several fields
have to be one clause. -/
def termClauses (f : Flattening) (conjunction : Conjunction) (besideGroups : Bool)
    (terms : List Clause) : List Clause :=
  let members := terms.map (under conjunction)
  if terms.isEmpty then []
  else if f.targets.isEmpty then members
  else if f.mode = .edismax then [.dismax f.targets members]
  else
    let perField := f.targets.map (onTarget (.list members))
    let perTerm :=
      if f.mode = .terms ∧ 1 < f.targets.length ∧ 1 < terms.length then
        [.list (terms.map fun t => under conjunction (.list (f.targets.map (onTarget t))))]
      else []
    let alternatives := perTerm ++ perField
    if besideGroups then [under conjunction (.list alternatives)] else alternatives

/-- The body of a group from the clauses of its nested groups and of its terms. -/
def bodyOf (f : Flattening) (conjunction : Conjunction) (groups terms : List Clause) :
    Option Clause :=
  let parts := groups ++ f.termClauses conjunction (!groups.isEmpty) terms
  if parts.isEmpty then none else some (.list parts)

/-- A nested group as a member under a conjunction; a negated one must not hold. -/
def nestedMember (conjunction : Conjunction) (negated : Bool) (body : Clause) : Clause :=
  if negated then body.not else under conjunction body

mutual

/-- The body of a group, without its sign; a group without terms has none. -/
def groupBody (f : Flattening) : Expression → Except Compile.ModeFault (Option Clause)
  | .term _ => .ok none
  | .group conjunction _ escaped children =>
    match f.members conjunction escaped children with
    | .error e => .error e
    | .ok (groups, terms) => .ok (f.bodyOf conjunction groups terms)

/-- The clauses of the nested groups and of the terms among the children of a group. -/
def members (f : Flattening) (conjunction : Conjunction) (escaped : Bool) :
    List Expression → Except Compile.ModeFault (List Clause × List Clause)
  | [] => .ok ([], [])
  | .term text :: rest =>
    match f.members conjunction escaped rest with
    | .error e => .error e
    | .ok (groups, terms) => .ok (groups, (literal f.mode escaped text).toList ++ terms)
  | .group c negated e children :: rest =>
    if f.mode = .edismax then .error .nestedGroup
    else
      match f.groupBody (.group c negated e children) with
      | .error e => .error e
      | .ok body =>
        match f.members conjunction escaped rest with
        | .error e => .error e
        | .ok (groups, terms) =>
          .ok ((body.map (nestedMember conjunction negated)).toList ++ groups, terms)

end

/-- The query of a whole text in the direct mode. -/
def wholeText (f : Flattening) (text : String) : Option Clause :=
  if Text.isBlankText text then none
  else
    let query : Clause := .list [.raw (Text.trimText text)]
    if f.targets.isEmpty then some query.must
    else some (Clause.list (f.targets.map (onTarget query))).must

/-- The query of keys; keys without terms have none. -/
def clause (f : Flattening) : Expression → Except Compile.ModeFault (Option Clause)
  | .term text => if f.mode = .direct then .ok (f.wholeText text) else .error .plainText
  | .group conjunction negated escaped children =>
    match f.groupBody (.group conjunction negated escaped children) with
    | .error e => .error e
    | .ok body => .ok (body.map (Clause.signed (if negated then .mustNot else .must)))

/-- The query of keys, or why they do not fit the mode. -/
def compile (f : Flattening) (keys : Expression) : Except Compile.Error (Option Clause) :=
  match f.clause keys with
  | .error fault => .error (.incompatibleMode f.mode fault)
  | .ok query => .ok query

end Flattening

/-- The text of the query of keys over fields; it is empty for keys without terms. -/
def compile (keys : Expression) (targets : List Target) (mode : Mode) :
    Except Compile.Error String :=
  match (Flattening.mk targets mode).compile keys with
  | .error e => .error e
  | .ok query => .ok ((query.map Clause.render).getD "")

end SearchCompiler.Keys
