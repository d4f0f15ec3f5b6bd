import ScriptTree.Docs.Catalog

/-!
The documentation that comes with the program: the types of nodes that a script mostly has.
-/

namespace ScriptTree.Docs

namespace Packaged

/-- The documentation of `ScriptBlockAst`. -/
def scriptBlockAst : Entry where
  name := "ScriptBlockAst"
  summary :=
    "The ast that represents a script block, the root of every parsed script."
  properties :=
    [{ name := "ParamBlock"
       typeName := "ParamBlockAst"
       summary :=
         "The ast representing the parameters for a script block, or null if no param " ++
           "block was specified."
       values := [] },
     { name := "BeginBlock"
       typeName := "NamedBlockAst"
       summary :=
         "The ast representing the begin block, or null if no begin block was specified."
       values := [] },
     { name := "ProcessBlock"
       typeName := "NamedBlockAst"
       summary :=
         "The ast representing the process block, or null if no process block was " ++
           "specified."
       values := [] },
     { name := "EndBlock"
       typeName := "NamedBlockAst"
       summary :=
         "The ast representing the end block or unnamed block, or null if neither was " ++
           "specified."
       values := [] },
     { name := "DynamicParamBlock"
       typeName := "NamedBlockAst"
       summary :=
         "The ast representing the dynamicparam block, or null if no dynamicparam block " ++
           "was specified."
       values := [] },
     { name := "UsingStatements"
       typeName := "ReadOnlyCollection<UsingStatementAst>"
       summary :=
         "The asts representing <c>using</c> statements. The property is never null."
       values := [] }]

/-- The documentation of `NamedBlockAst`. -/
def namedBlockAst : Entry where
  name := "NamedBlockAst"
  summary :=
    "The ast representing a begin, process, end, or dynamicparam block, or an " ++
      "unnamed block."
  properties :=
    [{ name := "Unnamed"
       typeName := "Boolean"
       summary :=
         "True if the block was not explicitly named, false otherwise."
       values := [] },
     { name := "BlockKind"
       typeName := "TokenKind"
       summary :=
         "The kind of block, one of Begin, Process, End, or Dynamicparam."
       values := ["Begin", "Process", "End", "Dynamicparam", "Clean"] },
     { name := "Statements"
       typeName := "ReadOnlyCollection<StatementAst>"
       summary :=
         "The asts for all of the statements represented by this statement block."
       values := [] }]

/-- The documentation of `StatementBlockAst`. -/
def statementBlockAst : Entry where
  name := "StatementBlockAst"
  summary :=
    "The ast representing a block of statements, e.g. the body of an <c>if</c> or " ++
      "a loop."
  properties :=
    [{ name := "Statements"
       typeName := "ReadOnlyCollection<StatementAst>"
       summary :=
         "The asts for all of the statements represented by this statement block."
       values := [] },
     { name := "Traps"
       typeName := "ReadOnlyCollection<TrapStatementAst>"
       summary :=
         "The asts for all of the trap statements specified by this statement block, or " ++
           "null."
       values := [] }]

/-- The documentation of `ParamBlockAst`. -/
def paramBlockAst : Entry where
  name := "ParamBlockAst"
  summary :=
    "The ast representing the <c>param</c> statement of a script block or function."
  properties :=
    [{ name := "Attributes"
       typeName := "ReadOnlyCollection<AttributeAst>"
       summary :=
         "The asts for attributes (such as <c>[CmdletBinding()]</c>) specified on the " ++
           "param block."
       values := [] },
     { name := "Parameters"
       typeName := "ReadOnlyCollection<ParameterAst>"
       summary :=
         "The asts for the parameters of the param statement."
       values := [] }]

/-- The documentation of `ParameterAst`. -/
def parameterAst : Entry where
  name := "ParameterAst"
  summary :=
    "The ast representing a parameter to a script."
  properties :=
    [{ name := "Name"
       typeName := "VariableExpressionAst"
       summary :=
         "The name of the parameter. This property is never null."
       values := [] },
     { name := "DefaultValue"
       typeName := "ExpressionAst"
       summary :=
         "The ast for the default value of the parameter, or null if no default value " ++
           "was specified."
       values := [] },
     { name := "StaticType"
       typeName := "Type"
       summary :=
         "Returns the type from the type constraint, or <c>[object]</c> when no type " ++
           "was specified."
       values := [] }]

/-- The documentation of `FunctionDefinitionAst`. -/
def functionDefinitionAst : Entry where
  name := "FunctionDefinitionAst"
  summary :=
    "The ast representing a function or filter definition."
  properties :=
    [{ name := "IsFilter"
       typeName := "Boolean"
       summary :=
         "If true, the filter keyword was used."
       values := [] },
     { name := "IsWorkflow"
       typeName := "Boolean"
       summary :=
         "If true, the workflow keyword was used."
       values := [] },
     { name := "Name"
       typeName := "String"
       summary :=
         "The name of the function or filter. This property is never null or empty."
       values := [] },
     { name := "Body"
       typeName := "ScriptBlockAst"
       summary :=
         "The body of the function. This property is never null."
       values := [] }]

/-- The documentation of `PipelineAst`. -/
def pipelineAst : Entry where
  name := "PipelineAst"
  summary :=
    "The ast that represents a pipeline of one or more commands joined by <c>|</c>."
  properties :=
    [{ name := "PipelineElements"
       typeName := "ReadOnlyCollection<CommandBaseAst>"
       summary :=
         "A non-null, non-empty collection of commands that make up the pipeline."
       values := [] },
     { name := "Background"
       typeName := "Boolean"
       summary :=
         "Indicates that this pipeline should be run in the background (<c>&</c> " ++
           "suffix)."
       values := [] }]

/-- The documentation of `CommandAst`. -/
def commandAst : Entry where
  name := "CommandAst"
  summary :=
    "The ast for a command invocation, e.g. <c>Get-ChildItem -Path .</c>."
  properties :=
    [{ name := "CommandElements"
       typeName := "ReadOnlyCollection<CommandElementAst>"
       summary :=
         "The name and arguments of the command, never null or empty."
       values := [] },
     { name := "InvocationOperator"
       typeName := "TokenKind"
       summary :=
         "The invocation operator (<c>&</c> or <c>.</c>) if one was specified, " ++
           "otherwise Unknown."
       values := ["Unknown", "Dot", "Ampersand"] }]

/-- The documentation of `CommandExpressionAst`. -/
def commandExpressionAst : Entry where
  name := "CommandExpressionAst"
  summary :=
    "The ast representing an expression used as a command, e.g. the first element " ++
      "of <c>$x | Out-Host</c>."
  properties :=
    [{ name := "Expression"
       typeName := "ExpressionAst"
       summary :=
         "The ast for the expression that is or starts a pipeline. This property is " ++
           "never null."
       values := [] }]

/-- The documentation of `CommandParameterAst`. -/
def commandParameterAst : Entry where
  name := "CommandParameterAst"
  summary :=
    "The ast representing a parameter to a command, e.g. <c>-Path</c>."
  properties :=
    [{ name := "ParameterName"
       typeName := "String"
       summary :=
         "The name of the parameter, without the leading dash."
       values := [] },
     { name := "Argument"
       typeName := "ExpressionAst"
       summary :=
         "The argument given with a colon, e.g. <c>-Force:$true</c>, or null."
       values := [] }]

/-- The documentation of `AssignmentStatementAst`. -/
def assignmentStatementAst : Entry where
  name := "AssignmentStatementAst"
  summary :=
    "The ast that represents an assignment statement, e.g. <c>$x = 42</c>."
  properties :=
    [{ name := "Left"
       typeName := "ExpressionAst"
       summary :=
         "The ast for the location being assigned. This property is never null."
       values := [] },
     { name := "Operator"
       typeName := "TokenKind"
       summary :=
         "The operator for the assignment."
       values :=
         ["Equals", "PlusEquals", "MinusEquals", "MultiplyEquals", "DivideEquals",
          "RemainderEquals"] },
     { name := "Right"
       typeName := "StatementAst"
       summary :=
         "The ast for the value being assigned. This property is never null."
       values := [] }]

/-- The documentation of `IfStatementAst`. -/
def ifStatementAst : Entry where
  name := "IfStatementAst"
  summary :=
    "The ast that represents an if statement, including its elseif and else " ++
      "clauses."
  properties :=
    [{ name := "Clauses"
       typeName := "ReadOnlyCollection<Tuple<PipelineBaseAst, StatementBlockAst>>"
       summary :=
         "The asts for the condition and body of the if and each elseif clause."
       values := [] },
     { name := "ElseClause"
       typeName := "StatementBlockAst"
       summary :=
         "The ast for the else clause, or null if no else clause is specified."
       values := [] }]

/-- The documentation of `ForEachStatementAst`. -/
def forEachStatementAst : Entry where
  name := "ForEachStatementAst"
  summary :=
    "The ast that represents a foreach statement, e.g. <c>foreach ($item in " ++
      "$items) {}</c>."
  properties :=
    [{ name := "Variable"
       typeName := "VariableExpressionAst"
       summary :=
         "The name of the variable set for each item as the loop iterates."
       values := [] },
     { name := "Condition"
       typeName := "PipelineBaseAst"
       summary :=
         "The pipeline that produces the values iterated over."
       values := [] },
     { name := "Flags"
       typeName := "ForEachFlags"
       summary :=
         "The flags, if any, specified on the foreach statement."
       values := ["None", "Parallel"] }]

/-- The documentation of `BinaryExpressionAst`. -/
def binaryExpressionAst : Entry where
  name := "BinaryExpressionAst"
  summary :=
    "The ast that represents a binary expression, e.g. <c>$a -eq $b</c>."
  properties :=
    [{ name := "Operator"
       typeName := "TokenKind"
       summary :=
         "The operator token kind."
       values := [] },
     { name := "Left"
       typeName := "ExpressionAst"
       summary :=
         "The ast for the left operand. This property is never null."
       values := [] },
     { name := "Right"
       typeName := "ExpressionAst"
       summary :=
         "The ast for the right operand. This property is never null."
       values := [] },
     { name := "StaticType"
       typeName := "Type"
       summary :=
         "The result type of the operation; <c>[bool]</c> for comparisons, otherwise " ++
           "<c>[object]</c>."
       values := [] }]

/-- The documentation of `VariableExpressionAst`. -/
def variableExpressionAst : Entry where
  name := "VariableExpressionAst"
  summary :=
    "The ast representing a variable reference, e.g. <c>$PSVersionTable</c>."
  properties :=
    [{ name := "VariablePath"
       typeName := "VariablePath"
       summary :=
         "The name of the variable. This property is never null."
       values := [] },
     { name := "Splatted"
       typeName := "Boolean"
       summary :=
         "True if splatting syntax was used, e.g. <c>@PSBoundParameters</c>."
       values := [] }]

/-- The documentation of `ConstantExpressionAst`. -/
def constantExpressionAst : Entry where
  name := "ConstantExpressionAst"
  summary :=
    "The ast representing constant values, such as numbers."
  properties :=
    [{ name := "Value"
       typeName := "Object"
       summary :=
         "The value of the constant."
       values := [] },
     { name := "StaticType"
       typeName := "Type"
       summary :=
         "The type of the constant."
       values := [] }]

/-- The documentation of `StringConstantExpressionAst`. -/
def stringConstantExpressionAst : Entry where
  name := "StringConstantExpressionAst"
  summary :=
    "The ast representing a constant string value, e.g. a bare word command name " ++
      "or a single-quoted string."
  properties :=
    [{ name := "StringConstantType"
       typeName := "StringConstantType"
       summary :=
         "The kind of string constant."
       values :=
         ["SingleQuoted", "SingleQuotedHereString", "DoubleQuoted", "DoubleQuotedHereString",
          "BareWord"] },
     { name := "Value"
       typeName := "String"
       summary :=
         "The value of the string, not including the quotes used."
       values := [] }]

/-- The documentation of `ExpandableStringExpressionAst`. -/
def expandableStringExpressionAst : Entry where
  name := "ExpandableStringExpressionAst"
  summary :=
    "The ast representing a string with embedded variables or sub-expressions, " ++
      "e.g. <c>\"Hello $name\"</c>."
  properties :=
    [{ name := "Value"
       typeName := "String"
       summary :=
         "The string value without quotes and before any expansion."
       values := [] },
     { name := "NestedExpressions"
       typeName := "ReadOnlyCollection<ExpressionAst>"
       summary :=
         "The expressions to be expanded in the string."
       values := [] }]

/-- The documentation of `MemberExpressionAst`. -/
def memberExpressionAst : Entry where
  name := "MemberExpressionAst"
  summary :=
    "The ast representing accessing a property, e.g. <c>$x.Length</c> or " ++
      "<c>[int]::MaxValue</c>."
  properties :=
    [{ name := "Expression"
       typeName := "ExpressionAst"
       summary :=
         "The expression that produces the value to retrieve the member from."
       values := [] },
     { name := "Member"
       typeName := "CommandElementAst"
       summary :=
         "The name of the member to retrieve."
       values := [] },
     { name := "Static"
       typeName := "Boolean"
       summary :=
         "True if the <c>::</c> operator was used."
       values := [] }]

/-- The documentation of `InvokeMemberExpressionAst`. -/
def invokeMemberExpressionAst : Entry where
  name := "InvokeMemberExpressionAst"
  summary :=
    "The ast representing the invocation of a method, e.g. <c>$sb.Append('x')</c>."
  properties :=
    [{ name := "Arguments"
       typeName := "ReadOnlyCollection<ExpressionAst>"
       summary :=
         "The non-empty collection of arguments to pass when invoking the method, or " ++
           "null."
       values := [] }]

/-- The documentation of `HashtableAst`. -/
def hashtableAst : Entry where
  name := "HashtableAst"
  summary :=
    "The ast that represents a hash literal, e.g. <c>@{a = 1}</c>."
  properties :=
    [{ name := "KeyValuePairs"
       typeName := "ReadOnlyCollection<Tuple<ExpressionAst, StatementAst>>"
       summary :=
         "The pairs of key names and asts for values used to construct the hash table."
       values := [] }]

/-- The documentation of `ArrayLiteralAst`. -/
def arrayLiteralAst : Entry where
  name := "ArrayLiteralAst"
  summary :=
    "The ast that represents an array literal expression, e.g. <c>1, 2, 3</c>."
  properties :=
    [{ name := "Elements"
       typeName := "ReadOnlyCollection<ExpressionAst>"
       summary :=
         "The non-empty collection of asts of the elements of the array."
       values := [] }]

/-- The documentation of `TypeConstraintAst`. -/
def typeConstraintAst : Entry where
  name := "TypeConstraintAst"
  summary :=
    "The ast representing a type constraint, e.g. <c>[int]</c> before a parameter " ++
      "or variable."
  properties :=
    [{ name := "TypeName"
       typeName := "ITypeName"
       summary :=
         "The type name of the constraint."
       values := [] }]

/-- The documentation of `AttributeAst`. -/
def attributeAst : Entry where
  name := "AttributeAst"
  summary :=
    "The ast representing an attribute, e.g. <c>[Parameter(Mandatory)]</c>."
  properties :=
    [{ name := "PositionalArguments"
       typeName := "ReadOnlyCollection<ExpressionAst>"
       summary :=
         "The positional arguments of the attribute."
       values := [] },
     { name := "NamedArguments"
       typeName := "ReadOnlyCollection<NamedAttributeArgumentAst>"
       summary :=
         "The named arguments of the attribute."
       values := [] }]

end Packaged

open Packaged in
/-- The documentation that is used where no other file is set. -/
def Catalog.packaged : Catalog :=
  ⟨[scriptBlockAst, namedBlockAst, statementBlockAst, paramBlockAst, parameterAst,
    functionDefinitionAst, pipelineAst, commandAst, commandExpressionAst, commandParameterAst,
    assignmentStatementAst, ifStatementAst, forEachStatementAst, binaryExpressionAst,
    variableExpressionAst, constantExpressionAst, stringConstantExpressionAst,
    expandableStringExpressionAst, memberExpressionAst, invokeMemberExpressionAst, hashtableAst,
    arrayLiteralAst, typeConstraintAst, attributeAst]⟩

end ScriptTree.Docs
