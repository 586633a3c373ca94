import ExploratoryOptimizer.Aqo.Hash
import ExploratoryOptimizer.Aqo.HashAny
import ExploratoryOptimizer.Library.Erasure.Holes

/-! `get_query_hash` of contrib/aqo/hash.c on the text that nodes/outfuncs.c prints for an analysed
query. A printed tree has named places for what may differ between two queries of one template:
the contents of constants, locations, and the location and length of a statement. -/
namespace ExploratoryOptimizer.Aqo.QueryHash
open Hash Library.Erasure

structure ConstFields where
  consttype : Nat
  consttypmod : Int
  constcollid : Nat
  constlen : Int
  constbyval : Bool
  location : Int
  constvalue : Option (Nat × List Int)

def boolText (value : Bool) : Text := if value then "true".toList else "false".toList

def outDatum (length : Nat) (bytes : List Int) : Text :=
  number length ++ " [ ".toList ++ bytes.flatMap (fun byte => number byte ++ [' ']) ++ [']']

/-- What `_outConst` prints after the label. -/
def ConstFields.text (fields : ConstFields) : Text :=
  field "consttype" (number fields.consttype) ++ field "consttypmod" (number fields.consttypmod) ++
    field "constcollid" (number fields.constcollid) ++ field "constlen" (number fields.constlen) ++
    field "constbyval" (boolText fields.constbyval) ++ field "constisnull"
    (boolText fields.constvalue.isNone) ++ field "location" (number fields.location) ++
    field "constvalue" (match fields.constvalue with
      | none => "<>".toList
      | some (length,bytes) => outDatum length bytes)

inductive Blank where
  | constFields
  | location
  | stmtLocation
  | stmtLen
  deriving DecidableEq

/-- What stands in the places of a tree. -/
structure Filling (ι : Type) where
  constFields : ι → ConstFields
  location : ι → Int
  stmtLocation : ι → Int
  stmtLen : ι → Int

def Filling.value {ι : Type} (filling : Filling ι) : Blank × ι → Text
  | (.constFields,place) => (filling.constFields place).text
  | (.location,place) => number (filling.location place)
  | (.stmtLocation,place) => number (filling.stmtLocation place)
  | (.stmtLen,place) => number (filling.stmtLen place)

structure QueryScalars where
  commandType : Nat
  querySource : Nat
  canSetTag : Bool
  resultRelation : Int
  hasAggs : Bool
  hasWindowFuncs : Bool
  hasTargetSRFs : Bool
  hasSubLinks : Bool
  hasDistinctOn : Bool
  hasRecursive : Bool
  hasModifyingCTE : Bool
  hasForUpdate : Bool
  hasRowSecurity : Bool
  override : Nat

mutual

/-- A printed node. Nodes other than constants and queries print whatever text around their
locations and children. -/
inductive Printed (ι : Type) where
  | const (place : ι)
  | query (place : ι) (scalars : QueryScalars)
      (utilityStmt cteList rtable jointree targetList onConflict returningList groupClause
        groupingSets havingQual windowClause distinctClause sortClause limitOffset limitCount
      rowMarks setOperations constraintDeps : NodeField ι)
  | other (label : Text) (parts : Parts ι)

inductive Parts (ι : Type) where
  | text (text : Text)
  | location (text : Text) (place : ι) (rest : Parts ι)
  | child (text : Text) (child : Printed ι) (rest : Parts ι)

/-- What `outNode` prints for a field of a query. -/
inductive NodeField (ι : Type) where
  | null
  | unknown
  | node (child : Printed ι)
  | list (children : Children ι)
  | oids (oids : List Nat)

inductive Children (ι : Type) where
  | last (child : Printed ι)
  | more (child : Printed ι) (rest : Children ι)

end

section Symbols

variable {ι : Type}

abbrev PrintedSymbol (ι : Type) := Glyph Char (Blank × ι)

def plainText (text : Text) : List (PrintedSymbol ι) := text.map .plain

def locationField (place : ι) : List (PrintedSymbol ι) :=
  plainText " :location ".toList ++ [.hole (.location,place)]

def statementFields (place : ι) : List (PrintedSymbol ι) :=
  plainText " :stmt_location ".toList ++ [.hole (.stmtLocation,place)] ++
    plainText " :stmt_len ".toList ++ [.hole (.stmtLen,place)]

def fieldName (name : String) : List (PrintedSymbol ι) := plainText (field name [])

def QueryScalars.commandText (scalars : QueryScalars) : Text :=
  field "commandType" (number scalars.commandType) ++ field "querySource"
    (number scalars.querySource) ++ field "canSetTag" (boolText scalars.canSetTag)

def QueryScalars.flagText (scalars : QueryScalars) : Text :=
  field "resultRelation" (number scalars.resultRelation) ++ field "hasAggs"
    (boolText scalars.hasAggs) ++ field "hasWindowFuncs" (boolText scalars.hasWindowFuncs) ++
    field "hasTargetSRFs" (boolText scalars.hasTargetSRFs) ++
    field "hasSubLinks" (boolText scalars.hasSubLinks) ++ field "hasDistinctOn"
    (boolText scalars.hasDistinctOn) ++ field "hasRecursive" (boolText scalars.hasRecursive) ++
    field "hasModifyingCTE" (boolText scalars.hasModifyingCTE) ++
    field "hasForUpdate" (boolText scalars.hasForUpdate) ++ field "hasRowSecurity"
    (boolText scalars.hasRowSecurity)

mutual

def Printed.symbols : Printed ι → List (PrintedSymbol ι)
  | .const place =>
    plainText "\x7bCONST".toList ++ [.hole (.constFields,place)] ++ plainText "\x7d".toList
  | .query place scalars utilityStmt cteList rtable jointree targetList onConflict
      returningList groupClause groupingSets havingQual windowClause distinctClause sortClause
      limitOffset limitCount rowMarks setOperations constraintDeps =>
    List.flatten [plainText "\x7bQUERY".toList,plainText scalars.commandText,
      fieldName "utilityStmt",utilityStmt.symbols,plainText scalars.flagText,
      fieldName "cteList",cteList.symbols,fieldName "rtable",rtable.symbols,
      fieldName "jointree",jointree.symbols,fieldName "targetList",targetList.symbols,
      plainText (field "override" (number scalars.override)),
      fieldName "onConflict",onConflict.symbols,fieldName "returningList",returningList.symbols,
      fieldName "groupClause",groupClause.symbols,fieldName "groupingSets",groupingSets.symbols,
      fieldName "havingQual",havingQual.symbols,fieldName "windowClause",windowClause.symbols,
      fieldName "distinctClause",distinctClause.symbols,fieldName "sortClause",sortClause.symbols,
      fieldName "limitOffset",limitOffset.symbols,fieldName "limitCount",limitCount.symbols,
      fieldName "rowMarks",rowMarks.symbols,fieldName "setOperations",setOperations.symbols,
      fieldName "constraintDeps",constraintDeps.symbols,statementFields place,
      plainText "\x7d".toList]
  | .other label parts =>
    plainText "\x7b".toList ++ plainText label ++ parts.symbols ++ plainText "\x7d".toList

def Parts.symbols : Parts ι → List (PrintedSymbol ι)
  | .text text => plainText text
  | .location text place rest => plainText text ++ locationField place ++ rest.symbols
  | .child text child rest => plainText text ++ child.symbols ++ rest.symbols

def NodeField.symbols : NodeField ι → List (PrintedSymbol ι)
  | .null => plainText "<>".toList
  | .unknown => plainText "?".toList
  | .node child => child.symbols
  | .list children => plainText "(".toList ++ children.symbols ++ plainText ")".toList
  | .oids oids =>
    plainText ("(o".toList ++ oids.flatMap (fun oid => ' ' :: number oid) ++ ")".toList)

def Children.symbols : Children ι → List (PrintedSymbol ι)
  | .last child => child.symbols
  | .more child rest => child.symbols ++ plainText " ".toList ++ rest.symbols

end

def queryToString (filling : Filling ι) (tree : Printed ι) : Text :=
  tree.symbols.flatMap (Glyph.render filling.value)

end Symbols

def removeStmtLen (str : Text) : Text := replacePatterns str " :stmt_len" isBrace

def getQueryHash (hash : HashAny) (str : Text) : Int :=
  hash.str (removeStmtLen (removeVarnoold (removeVarno (removeLocations (removeConsts str)))))

/-! Characters of the values that stand in the places. -/

theorem repr_chars (value : Nat) (c : Char) (member : c ∈ value.repr.toList) : c.isDigit := by
  rw [Nat.repr,String.toList_ofList] at member
  exact Nat.isDigit_of_mem_toDigits (by decide) (by decide) member

theorem number_negSucc (value : Nat) :
    number (Int.negSucc value) = '-' :: (value + 1).repr.toList := by
  change ("-" ++ (value + 1).repr).toList = _
  rw [String.toList_append]
  rfl

def isNumeric (c : Char) : Bool := c.isDigit || c = '-'

theorem number_chars (value : Int) (c : Char) (member : c ∈ number value) : isNumeric c := by
  cases value with
  | ofNat value => simp [isNumeric,repr_chars value c member]
  | negSucc value =>
    rw [number_negSucc] at member
    rcases List.mem_cons.mp member with rfl | digit
    · rfl
    · simp [isNumeric,repr_chars (value + 1) c digit]

theorem number_ne_nil (value : Int) : number value ≠ [] := by
  cases value with
  | ofNat value =>
    change value.repr.toList ≠ []
    rw [Nat.repr,String.toList_ofList]
    exact Nat.toDigits_ne_nil
  | negSucc value =>
    rw [number_negSucc]
    exact List.cons_ne_nil _ _

theorem repr_injective (first second : Nat) (same : first.repr.toList = second.repr.toList) :
    first = second := by
  rw [Nat.repr,Nat.repr,String.toList_ofList,String.toList_ofList] at same
  rw [← Nat.ofDigitChars_ten_toDigits (n := first),same,Nat.ofDigitChars_ten_toDigits]

theorem number_injective (first second : Int) (same : number first = number second) :
    first = second := by
  have unsigned (value : Nat) : '-' ∉ number (Int.ofNat value) := fun member => by
    have digit := repr_chars value '-' member
    exact absurd digit (by decide)
  cases first with
  | ofNat first =>
    cases second with
    | ofNat second => rw [repr_injective first second same]
    | negSucc second =>
      refine absurd ?_ (unsigned first)
      rw [same,number_negSucc]
      exact List.mem_cons_self
  | negSucc first =>
    cases second with
    | ofNat second =>
      refine absurd ?_ (unsigned second)
      rw [← same,number_negSucc]
      exact List.mem_cons_self
    | negSucc second =>
      rw [number_negSucc,number_negSucc] at same
      rw [Nat.succ.inj (repr_injective (first + 1) (second + 1) (List.cons.inj same).2)]

theorem number_foreign (start : Text) (stop : Char → Bool) (value : Int)
    (pattern : ∀ c ∈ start, isNumeric c = false) (stopping : ∀ c, stop c → isNumeric c = false) :
    ∀ c ∈ number value, c ∉ start ∧ stop c = false := by
  intro c member
  have numeric := number_chars value c member
  refine ⟨fun within => ?_,eq_false_of_ne_true fun stops => ?_⟩
  · rw [pattern c within] at numeric
    exact Bool.false_ne_true numeric
  · rw [stopping c stops] at numeric
    exact Bool.false_ne_true numeric

theorem isBrace_numeric (c : Char) (brace : isBrace c) : isNumeric c = false := by
  simp only [isBrace,Bool.or_eq_true,decide_eq_true_eq] at brace
  rcases brace with rfl | rfl
  · rfl
  · rfl

theorem isColon_numeric (c : Char) (colon : isColon c) : isNumeric c = false := by
  rw [isColon,decide_eq_true_eq] at colon
  rw [colon]
  rfl

/-- Neither a capital letter nor a brace, as everything printed inside a constant. -/
def isModest (c : Char) : Bool := !c.isUpper && !isBrace c

theorem isNumeric_modest (c : Char) (numeric : isNumeric c) : isModest c := by
  have brace : isBrace c = false := eq_false_of_ne_true fun brace => by
    rw [isBrace_numeric c brace] at numeric
    exact Bool.false_ne_true numeric
  have upper : c.isUpper = false := by
    simp only [isNumeric,Bool.or_eq_true,decide_eq_true_eq] at numeric
    rcases numeric with digit | rfl
    · simp only [Char.isDigit,Bool.and_eq_true,decide_eq_true_eq] at digit
      refine eq_false_of_ne_true fun capital => ?_
      have above := (of_decide_eq_true capital).1
      exact absurd (UInt32.le_trans above digit.2) (by decide)
    · rfl
  rw [isModest,upper,brace]
  rfl

theorem number_modest (value : Int) : (number value).all isModest := by
  rw [List.all_eq_true]
  exact fun c member => isNumeric_modest c (number_chars value c member)

theorem field_modest (name : String) (value : Text) (named : name.toList.all isModest)
    (modest : value.all isModest) :
    (field name value).all isModest := by
  rw [field,List.all_append,List.all_append,List.all_cons,named,modest]
  rfl

theorem boolText_modest (value : Bool) : (boolText value).all isModest := by
  cases value with
  | false => rfl
  | true => rfl

theorem outDatum_modest (length : Nat) (bytes : List Int) :
    (outDatum length bytes).all isModest := by
  have each : (bytes.flatMap fun byte => number byte ++ [' ']).all isModest := by
    induction bytes with
    | nil => rfl
    | cons byte bytes ih =>
      rw [List.flatMap_cons,List.all_append,List.all_append,number_modest,ih]
      rfl
  rw [outDatum,List.all_append,List.all_append,List.all_append,number_modest,each]
  rfl

theorem constText_modest (fields : ConstFields) : fields.text.all isModest := by
  have value : (match fields.constvalue with
      | none => "<>".toList
      | some (length,bytes) => outDatum length bytes).all isModest := by
    cases fields.constvalue with
    | none => rfl
    | some datum => exact outDatum_modest datum.1 datum.2
  rw [ConstFields.text]
  simp only [List.all_append,Bool.and_eq_true]
  exact ⟨⟨⟨⟨⟨⟨⟨field_modest _ _ rfl (number_modest _),field_modest _ _ rfl (number_modest _)⟩,
    field_modest _ _ rfl (number_modest _)⟩,field_modest _ _ rfl (number_modest _)⟩,
    field_modest _ _ rfl (boolText_modest _)⟩,field_modest _ _ rfl (boolText_modest _)⟩,
    field_modest _ _ rfl (number_modest _)⟩,field_modest _ _ rfl value⟩

/-! Contexts of the places, last symbol first. -/

section Contexts

variable {ι : Type}

def constContext : PrintedSymbol ι → List (PrintedSymbol ι)
  | .hole (.constFields,_) => (plainText "\x7bCONST".toList).reverse
  | _ => []

def fieldContext : PrintedSymbol ι → List (PrintedSymbol ι)
  | .hole (.location,_) => (plainText " :location ".toList).reverse
  | .hole (.stmtLen,place) =>
    List.reverse (plainText ":stmt_location ".toList ++ [Glyph.hole (.stmtLocation,place)] ++
      plainText " :stmt_len ".toList)
  | _ => []

/-- What holds of every piece in which places are printed, and of two texts in a row. -/
structure Piecewise (property : List (PrintedSymbol ι) → Prop) : Prop where
  plain : ∀ text, property (plainText text)
  const : ∀ place, property (Printed.const place).symbols
  location : ∀ place, property (locationField place)
  statement : ∀ place, property (statementFields place)
  append : ∀ first second, property first → property second → property (first ++ second)

theorem Piecewise.flatten {property : List (PrintedSymbol ι) → Prop}
    (piecewise : Piecewise property) (pieces : List (List (PrintedSymbol ι)))
    (each : ∀ piece ∈ pieces, property piece) : property pieces.flatten := by
  induction pieces with
  | nil => exact piecewise.plain []
  | cons piece pieces ih =>
    exact piecewise.append _ _ (each piece (by simp))
      (ih fun other member => each other (by simp [member]))

mutual

theorem Printed.piecewise {property : List (PrintedSymbol ι) → Prop}
    (piecewise : Piecewise property) :
    ∀ tree : Printed ι, property tree.symbols
  | .const place => piecewise.const place
  | .query place scalars utilityStmt cteList rtable jointree targetList onConflict
      returningList groupClause groupingSets havingQual windowClause distinctClause sortClause
      limitOffset limitCount rowMarks setOperations constraintDeps => by
    rw [Printed.symbols]
    apply piecewise.flatten
    simp only [List.forall_mem_cons,List.not_mem_nil,false_implies,implies_true,and_true]
    exact ⟨piecewise.plain _,piecewise.plain _,
      piecewise.plain _,NodeField.piecewise piecewise utilityStmt,piecewise.plain _,
      piecewise.plain _,NodeField.piecewise piecewise cteList,
      piecewise.plain _,NodeField.piecewise piecewise rtable,
      piecewise.plain _,NodeField.piecewise piecewise jointree,
      piecewise.plain _,NodeField.piecewise piecewise targetList,
      piecewise.plain _,
      piecewise.plain _,NodeField.piecewise piecewise onConflict,
      piecewise.plain _,NodeField.piecewise piecewise returningList,
      piecewise.plain _,NodeField.piecewise piecewise groupClause,
      piecewise.plain _,NodeField.piecewise piecewise groupingSets,
      piecewise.plain _,NodeField.piecewise piecewise havingQual,
      piecewise.plain _,NodeField.piecewise piecewise windowClause,
      piecewise.plain _,NodeField.piecewise piecewise distinctClause,
      piecewise.plain _,NodeField.piecewise piecewise sortClause,
      piecewise.plain _,NodeField.piecewise piecewise limitOffset,
      piecewise.plain _,NodeField.piecewise piecewise limitCount,
      piecewise.plain _,NodeField.piecewise piecewise rowMarks,
      piecewise.plain _,NodeField.piecewise piecewise setOperations,
      piecewise.plain _,NodeField.piecewise piecewise constraintDeps,piecewise.statement place,
      piecewise.plain _⟩
  | .other label parts =>
    piecewise.append _ _ (piecewise.append _ _
        (piecewise.append _ _ (piecewise.plain _) (piecewise.plain label))
      (Parts.piecewise piecewise parts)) (piecewise.plain _)

theorem Parts.piecewise {property : List (PrintedSymbol ι) → Prop}
    (piecewise : Piecewise property) :
    ∀ parts : Parts ι, property parts.symbols
  | .text text => piecewise.plain text
  | .location text place rest =>
    piecewise.append _ _ (piecewise.append _ _ (piecewise.plain text) (piecewise.location place))
      (Parts.piecewise piecewise rest)
  | .child text child rest =>
    piecewise.append _ _ (piecewise.append _ _ (piecewise.plain text)
        (Printed.piecewise piecewise child))
      (Parts.piecewise piecewise rest)

theorem NodeField.piecewise {property : List (PrintedSymbol ι) → Prop}
    (piecewise : Piecewise property) :
    ∀ value : NodeField ι, property value.symbols
  | .null => piecewise.plain _
  | .unknown => piecewise.plain _
  | .node child => Printed.piecewise piecewise child
  | .list children =>
    piecewise.append _ _ (piecewise.append _ _ (piecewise.plain _)
        (Children.piecewise piecewise children))
      (piecewise.plain _)
  | .oids _ => piecewise.plain _

theorem Children.piecewise {property : List (PrintedSymbol ι) → Prop}
    (piecewise : Piecewise property) :
    ∀ children : Children ι, property children.symbols
  | .last child => Printed.piecewise piecewise child
  | .more child rest =>
    piecewise.append _ _ (piecewise.append _ _ (Printed.piecewise piecewise child)
        (piecewise.plain _))
      (Children.piecewise piecewise rest)

end

theorem guarded_last (context : PrintedSymbol ι → List (PrintedSymbol ι))
    (before : List (PrintedSymbol ι)) (symbol : PrintedSymbol ι)
    (free : ∀ other ∈ before, context other = []) (follows : context symbol <+: before.reverse) :
    Guarded context [] (before ++ [symbol]) := by
  refine (guarded_free context [] before free).append ⟨?_,trivial⟩
  rw [List.append_nil]
  exact follows

theorem forall_plainText {property : PrintedSymbol ι → Prop}
    (plain : ∀ c, property (.plain c)) (text : Text) :
    ∀ symbol ∈ plainText text, property symbol := by
  intro symbol member
  obtain ⟨c,_,rfl⟩ := List.mem_map.mp member
  exact plain c

theorem value_modest (filling : Filling ι) (name : Blank × ι) :
    (filling.value name).all isModest := by
  obtain ⟨blank,place⟩ := name
  cases blank with
  | constFields => exact constText_modest _
  | location => exact number_modest _
  | stmtLocation => exact number_modest _
  | stmtLen => exact number_modest _

theorem value_ne_nil (filling : Filling ι) (name : Blank × ι) : filling.value name ≠ [] := by
  obtain ⟨blank,place⟩ := name
  cases blank with
  | constFields => exact List.cons_ne_nil _ _
  | location => exact number_ne_nil _
  | stmtLocation => exact number_ne_nil _
  | stmtLen => exact number_ne_nil _

theorem foreign_const (filling : Filling ι) (name : Blank × ι) :
    Foreign "\x7bCONST".toList isBrace filling.value name := by
  refine ⟨value_ne_nil filling name,fun c member => ?_⟩
  have modest := List.all_eq_true.mp (value_modest filling name) c member
  refine ⟨fun within => ?_,by simp_all [isModest]⟩
  have immodest : "\x7bCONST".toList.any isModest = false := by decide
  exact List.any_eq_false.mp immodest c within modest

theorem foreign_of_constless (filling : Filling ι) (start : String) (stop : Char → Bool)
    (symbols : List (PrintedSymbol ι)) (constless : ∀ place, .hole (.constFields,place) ∉ symbols)
    (pattern : start.toList.any isNumeric = false) (stopping : ∀ c, stop c → isNumeric c = false) :
    ForeignIn start.toList stop filling.value symbols := by
  have pattern : ∀ c ∈ start.toList, isNumeric c = false := by simpa using pattern
  rintro ⟨blank,place⟩ member
  cases blank with
  | constFields => exact absurd member (constless place)
  | location => exact ⟨number_ne_nil _,number_foreign _ _ _ pattern stopping⟩
  | stmtLocation => exact ⟨number_ne_nil _,number_foreign _ _ _ pattern stopping⟩
  | stmtLen => exact ⟨number_ne_nil _,number_foreign _ _ _ pattern stopping⟩

def character : PrintedSymbol ι → Option Char
  | .plain c => some c
  | .hole _ => none

theorem map_plainText (text : Text) :
    (plainText text : List (PrintedSymbol ι)).map character = text.map some := by
  rw [plainText,List.map_map]
  rfl

theorem stops_plainText (stop : Char → Bool) (text : Text) (free : text.any stop = false) :
    ∀ symbol ∈ (plainText text : List (PrintedSymbol ι)), Glyph.stops stop symbol = false := by
  intro symbol member
  obtain ⟨c,within,rfl⟩ := List.mem_map.mp member
  exact eq_false_of_ne_true (List.any_eq_false.mp free c within)

theorem guarded_plainText (context : PrintedSymbol ι → List (PrintedSymbol ι))
    (plain : ∀ c, context (.plain c) = []) (text : Text) : Guarded context [] (plainText text) :=
  guarded_free context [] _ (forall_plainText plain text)

theorem constContext_guards : Piecewise (Guarded (@constContext ι) []) where
  plain := guarded_plainText _ fun _ => rfl
  const := by
    intro place
    rw [Printed.symbols]
    refine Guarded.concat ?_ (guarded_plainText _ (fun _ => rfl) _)
    exact guarded_last _ _ _ (forall_plainText (fun _ => rfl) _) (List.prefix_refl _)
  location := by
    intro place
    refine guarded_free _ _ _ ?_
    simp only [locationField,List.forall_mem_append,List.forall_mem_singleton]
    exact ⟨forall_plainText (fun _ => rfl) _,rfl⟩
  statement := by
    intro place
    refine guarded_free _ _ _ ?_
    simp only [statementFields,List.forall_mem_append,List.forall_mem_singleton]
    exact ⟨⟨⟨forall_plainText (fun _ => rfl) _,rfl⟩,forall_plainText (fun _ => rfl) _⟩,rfl⟩
  append := fun _ _ => Guarded.concat

theorem fieldContext_guards : Piecewise (Guarded (@fieldContext ι) []) where
  plain := guarded_plainText _ fun _ => rfl
  const := by
    intro place
    refine guarded_free _ _ _ ?_
    simp only [Printed.symbols,List.forall_mem_append,List.forall_mem_singleton]
    exact ⟨⟨forall_plainText (fun _ => rfl) _,rfl⟩,forall_plainText (fun _ => rfl) _⟩
  location :=
    fun place => guarded_last _ _ _ (forall_plainText (fun _ => rfl) _) (List.prefix_refl _)
  statement := by
    intro place
    refine guarded_last _ _ _ ?_ (List.reverse_prefix.mpr ⟨[.plain ' '],rfl⟩)
    simp only [List.forall_mem_append,List.forall_mem_singleton]
    exact ⟨⟨forall_plainText (fun _ => rfl) _,rfl⟩,forall_plainText (fun _ => rfl) _⟩
  append := fun _ _ => Guarded.concat

def IsStmtLocation : PrintedSymbol ι → Prop
  | .hole (.stmtLocation,_) => True
  | _ => False

theorem stmtLocation_followed : Piecewise (Followed (@IsStmtLocation ι) (.plain ' ')) where
  plain := fun text => followed_free _ _ _ (forall_plainText (fun _ => id) text)
  const := by
    intro place
    refine followed_free _ _ _ ?_
    simp only [Printed.symbols,List.forall_mem_append,List.forall_mem_singleton]
    exact ⟨⟨forall_plainText (fun _ => id) _,id⟩,forall_plainText (fun _ => id) _⟩
  location := by
    intro place
    refine followed_free _ _ _ ?_
    simp only [locationField,List.forall_mem_append,List.forall_mem_singleton]
    exact ⟨forall_plainText (fun _ => id) _,id⟩
  statement := by
    intro place
    rw [statementFields,List.append_assoc,List.append_assoc]
    refine (followed_free _ _ _ (forall_plainText (fun _ => id) _)).append ⟨fun _ => rfl,?_⟩
    change Followed _ _ (plainText " :stmt_len ".toList ++ [.hole (.stmtLen,place)])
    refine followed_free _ _ _ ?_
    simp only [List.forall_mem_append,List.forall_mem_singleton]
    exact ⟨forall_plainText (fun _ => id) _,id⟩
  append := fun _ _ => Followed.append

end Contexts

/-! The five passes on the symbols of a tree. -/

theorem replaceFrom_erase (start : Text) (stop : Char → Bool) (seen rest : Text) :
    replaceFrom start stop seen (skips start stop seen) rest = erase start stop seen rest := by
  induction rest generalizing seen with
  | nil => rfl
  | cons c rest ih =>
    have next := ih (c :: seen)
    rw [skips] at next
    rw [replaceFrom,erase,skips]
    split_ifs with skipped
    · rw [skipped] at next
      exact next
    · rw [eq_false_of_ne_true skipped] at next
      rw [next]

section Passes

variable {ι : Type} [DecidableEq ι]

def pass (start : String) (stop : Char → Bool) (symbols : List (PrintedSymbol ι)) : List
    (PrintedSymbol ι) :=
  erase (plainText start.toList) (Glyph.stops stop) [] symbols

theorem replacePatterns_render (start : String) (stop : Char → Bool) (value : Blank × ι → Text)
    (symbols : List (PrintedSymbol ι)) (nonempty : start.toList ≠ [])
    (foreign : ForeignIn start.toList stop value symbols) :
    replacePatterns (symbols.flatMap (Glyph.render value)) start stop =
      (pass start stop symbols).flatMap (Glyph.render value) :=
  (replaceFrom_erase start.toList stop [] _).trans
    (erase_render start.toList stop value nonempty [] symbols foreign)

theorem pass_subset (start : String) (stop : Char → Bool) (symbols : List (PrintedSymbol ι)) :
    pass start stop symbols ⊆ symbols :=
  (erase_sublist _ _ _ _).subset

theorem pass_guarded (start : String) (symbols : List (PrintedSymbol ι))
    (guarded : Guarded fieldContext [] symbols) :
    Guarded fieldContext [] (pass start isBrace symbols) := by
  refine guarded_erase_run _ _ fieldContext [] symbols guarded fun symbol guards => ?_
  rcases symbol with c | ⟨blank,place⟩
  · exact absurd rfl guards
  · cases blank with
    | constFields => exact absurd rfl guards
    | stmtLocation => exact absurd rfl guards
    | location =>
      refine List.forall_mem_cons.mpr ⟨rfl,?_⟩
      simp only [fieldContext,List.mem_reverse]
      exact stops_plainText _ _ (by decide)
    | stmtLen =>
      refine List.forall_mem_cons.mpr ⟨rfl,?_⟩
      simp only [fieldContext,List.mem_reverse,List.forall_mem_append,List.forall_mem_singleton]
      exact ⟨⟨stops_plainText _ _ (by decide),rfl⟩,stops_plainText _ _ (by decide)⟩

/-- Looking for a column number leaves the fields of a statement together. -/
theorem pass_guarded_colon (start : String) (symbols : List (PrintedSymbol ι))
    (guarded : Guarded fieldContext [] symbols)
    (unlocated : ∀ place, .hole (.location,place) ∉ symbols) (quiet : Quiet (start.toList.map some)
      (List.reverse (":stmt_location ".toList.map some ++ [none] ++
          " :stmt_len ".toList.map some))) :
    Guarded fieldContext [] (pass start isColon symbols) := by
  refine guarded_erase _ _ fieldContext [] symbols guarded fun symbol member before _ => ?_
  rcases symbol with c | ⟨blank,place⟩
  · rfl
  · cases blank with
    | constFields => rfl
    | stmtLocation => rfl
    | location => exact absurd member (unlocated place)
    | stmtLen =>
      have apart (after : List (PrintedSymbol ι)) : fieldContext (.hole (.stmtLen,place)) ++ after =
          List.reverse (plainText "stmt_location ".toList ++ [Glyph.hole (.stmtLocation,place)] ++
            plainText " :stmt_len ".toList) ++ .plain ':' :: after := rfl
      rw [apart,apart]
      apply kept_quiet _ _ before _ (.plain ':') rfl
      apply Quiet.of_map character
      rw [map_plainText]
      exact quiet

theorem removeConsts_holes (tree : Printed ι) (place : ι) :
    .hole (.constFields,place) ∉ pass "\x7bCONST" isBrace tree.symbols :=
  erase_guarded _ _ constContext [] tree.symbols (Printed.piecewise constContext_guards tree) _ []
    (List.prefix_refl _) (by simp [Glyph.stops])

theorem removeLocations_holes (symbols : List (PrintedSymbol ι))
    (guarded : Guarded fieldContext [] symbols) (place : ι) :
    .hole (.location,place) ∉ pass " :location" isBrace symbols :=
  erase_guarded _ _ fieldContext [] symbols guarded _ [.plain ' '] (List.prefix_refl _)
    (by simp [Glyph.stops,isBrace])

theorem removeStmtLen_holes (symbols : List (PrintedSymbol ι))
    (guarded : Guarded fieldContext [] symbols) (place : ι) :
    .hole (.stmtLen,place) ∉ pass " :stmt_len" isBrace symbols :=
  erase_guarded _ _ fieldContext [] symbols guarded _ [.plain ' ']
    (by
      rw [fieldContext,List.reverse_append]
      exact List.prefix_append _ _)
    (by simp [Glyph.stops,isBrace])

/-- What the five passes leave of a tree. -/
def normalSymbols (tree : Printed ι) : List (PrintedSymbol ι) :=
  pass " :stmt_len" isBrace (pass " :varnoold" isColon (pass " :varno" isColon
    (pass " :location" isBrace (pass "\x7bCONST" isBrace tree.symbols))))

theorem normalised (filling : Filling ι) (tree : Printed ι) :
    removeStmtLen (removeVarnoold
        (removeVarno (removeLocations (removeConsts (queryToString filling tree))))) =
      (normalSymbols tree).flatMap (Glyph.render filling.value) := by
  have constless : ∀ place, .hole (.constFields,place) ∉ pass "\x7bCONST" isBrace tree.symbols :=
    removeConsts_holes tree
  have later (start : String) (stop : Char → Bool) (symbols : List (PrintedSymbol ι))
      (constless : ∀ place, .hole (.constFields,place) ∉ symbols) (place : ι) :
      .hole (.constFields,place) ∉ pass start stop symbols :=
    fun member => constless place (pass_subset start stop symbols member)
  rw [queryToString,removeConsts,replacePatterns_render _ _ _ _ (by decide) fun name _ =>
    foreign_const filling name,
    removeLocations,replacePatterns_render _ _ _ _ (by decide)
      (foreign_of_constless filling _ _ _ constless (by decide) isBrace_numeric),
    removeVarno,replacePatterns_render _ _ _ _ (by decide)
      (foreign_of_constless filling _ _ _ (later _ _ _ constless) (by decide) isColon_numeric),
    removeVarnoold,replacePatterns_render _ _ _ _ (by decide)
      (foreign_of_constless filling _ _ _ (later _ _ _ (later _ _ _ constless))
        (by decide) isColon_numeric),
    removeStmtLen,replacePatterns_render _ _ _ _ (by decide)
      (foreign_of_constless filling _ _ _ (later _ _ _ (later _ _ _ (later _ _ _ constless)))
        (by decide) isBrace_numeric)]
  rfl

/-- Only statement locations are left. -/
theorem normalSymbols_hole (tree : Printed ι) (blank : Blank) (place : ι)
    (member : .hole (blank,place) ∈ normalSymbols tree) :
    blank = .stmtLocation ∧ .hole (blank,place) ∈ tree.symbols := by
  have guarded := pass_guarded "\x7bCONST" tree.symbols (Printed.piecewise fieldContext_guards tree)
  have located := removeLocations_holes _ guarded
  have guarded := pass_guarded " :location" _ guarded
  have guarded := pass_guarded_colon " :varno" _ guarded located (by unfold Quiet; decide)
  have guarded :=
    pass_guarded_colon " :varnoold" _ guarded
      (fun place member => located place (pass_subset _ _ _ member))
    (by unfold Quiet; decide)
  have lengthless := removeStmtLen_holes _ guarded
  have fourth := pass_subset _ _ _ member
  have third := pass_subset _ _ _ fourth
  have second := pass_subset _ _ _ third
  have first := pass_subset _ _ _ second
  refine ⟨?_,pass_subset _ _ _ first⟩
  cases blank with
  | constFields => exact absurd first (removeConsts_holes tree place)
  | location => exact absurd second (located place)
  | stmtLocation => rfl
  | stmtLen => exact absurd member (lengthless place)

/-- Whether the five passes leave the location of a statement in the text. -/
def Printed.keepsStmtLocation (tree : Printed ι) (place : ι) : Prop :=
  .hole (.stmtLocation,place) ∈ normalSymbols tree

theorem pass_followed (start : String) (stop : Char → Bool) (symbols : List (PrintedSymbol ι))
    (nonempty : start.toList ≠ []) (followed : Followed IsStmtLocation (.plain ' ') symbols) :
    Followed IsStmtLocation (.plain ' ') (pass start stop symbols) := by
  refine followed_erase _ _ _ _ (by simpa [plainText] using nonempty) ?_ [] symbols followed
  intro symbol mark member
  obtain ⟨c,_,rfl⟩ := List.mem_map.mp member
  exact mark

theorem normalSymbols_followed (tree : Printed ι) :
    Followed IsHole (.plain ' ') (normalSymbols tree) := by
  have followed : Followed IsStmtLocation (.plain ' ') (normalSymbols tree) := by
    unfold normalSymbols
    iterate 5 refine pass_followed _ _ _ (by decide) ?_
    exact Printed.piecewise stmtLocation_followed tree
  refine followed.mono fun symbol member mark => ?_
  rcases symbol with c | ⟨blank,place⟩
  · exact absurd mark id
  · obtain ⟨rfl,_⟩ := normalSymbols_hole tree blank place member
    trivial

theorem normalised_eq_iff (tree : Printed ι) (first second : Filling ι) :
    (normalSymbols tree).flatMap (Glyph.render first.value) =
        (normalSymbols tree).flatMap (Glyph.render second.value) ↔
      ∀ place, tree.keepsStmtLocation place → first.stmtLocation place =
      second.stmtLocation place := by
  constructor
  · intro same place kept
    apply number_injective
    refine render_inj ' ' _ first.value second.value (normalSymbols_followed tree) ?_ same
      (.stmtLocation,place) kept
    rintro ⟨blank,other⟩ member
    obtain ⟨rfl,_⟩ := normalSymbols_hole tree blank other member
    have absent (value : Int) : ' ' ∉ number value := fun within => by
      have numeric := number_chars value ' ' within
      exact absurd numeric (by decide)
    exact ⟨absent _,absent _⟩
  · intro alike
    apply flatMap_render_congr
    rintro ⟨blank,place⟩ member
    obtain ⟨rfl,_⟩ := normalSymbols_hole tree blank place member
    exact congrArg number (alike place member)

/-- The hash ignores constants, locations and statement lengths; it does see where a statement
starts. -/
theorem getQueryHash_eq_iff (tree : Printed ι) (first second : Filling ι) :
    (∀ hash : HashAny, getQueryHash hash (queryToString first tree) = getQueryHash hash
      (queryToString second tree)) ↔
      ∀ place, tree.keepsStmtLocation place → first.stmtLocation place =
        second.stmtLocation place := by
  rw [← normalised_eq_iff tree first second]
  constructor
  · intro same
    by_contra different
    have apart :=
      same ⟨fun text => if text = (normalSymbols tree).flatMap (Glyph.render first.value) then 1
        else 0,
      fun _ => 0⟩
    rw [getQueryHash,getQueryHash,normalised,normalised] at apart
    dsimp only at apart
    rw [if_pos rfl,if_neg (Ne.symm different)] at apart
    exact one_ne_zero apart
  · intro same hash
    rw [getQueryHash,getQueryHash,normalised,normalised,same]

end Passes

/-- `SELECT n`, for a constant n. -/
def selectConst : Printed Unit :=
  .query () ⟨1,0,true,0,false,false,false,false,false,false,false,false,false,0⟩ .null .null .null
    (.node (.other "FROMEXPR".toList (.text " :fromlist <> :quals <>".toList)))
    (.list (.last (.other "TARGETENTRY".toList (.child " :expr ".toList (.const ()) (.text
      " :resno 1 :resname ?column? :ressortgroupref 0 :resorigtbl 0 :resorigcol 0 :resjunk false".toList)))))
    .null .null .null .null .null .null .null .null .null .null .null .null .null

/-- An integer constant at the given location of a statement. -/
def integerAt (value : Int) (location stmtLocation stmtLen : Int) : Filling Unit :=
  ⟨fun _ => ⟨23,-1,0,4,true,location,some (4,[value,0,0,0,0,0,0,0])⟩,fun _ => -1,fun _ =>
    stmtLocation,fun _ => stmtLen⟩

def hashAnyBytes : HashAny where
  str := fun text => (HashAny.hashAny (text.flatMap String.utf8EncodeChar)).toInt32.toInt
  intArray := fun values => (HashAny.hashAny (values.flatMap fun value =>
    (List.range 4).map fun place =>
      UInt8.ofNat ((value % 2 ^ 32).toNat / 2 ^ (8 * place)))).toInt32.toInt

/-- `SELECT 1;SELECT 1`: the second statement is hashed apart from the first. -/
theorem getQueryHash_sees_stmtLocation :
    getQueryHash hashAnyBytes (queryToString (integerAt 1 7 0 8) selectConst) ≠
      getQueryHash hashAnyBytes (queryToString (integerAt 1 16 9 0) selectConst) := by
  decide +kernel

end ExploratoryOptimizer.Aqo.QueryHash
