/-
# `MethodSkeleton.Registry.Builtin` — the templates that come with the program

Three skeletons: `stub` declares the method with a body that panics, `mock` declares it on
a type of its own and passes the call on, and `test` is a table of test cases.  They share
the fragments that spell parameter lists, argument lists and result lists.  A parameter
without a name is called by its index.
-/
import MethodSkeleton.Registry.Basic

namespace MethodSkeleton.Builtin

/-- An output. -/
def output (expression : String) : String := "\x7b\x7b " ++ expression ++ " \x7d\x7d"

/-- A tag. -/
def tag (text : String) : String := "\x7b% " ++ text ++ " %\x7d"

/-- A piece that is written in front of every element of a list but the first. -/
def separator : String := tag "unless forloop.first" ++ ", " ++ tag "endunless"

/-- The name of the parameter `p`. -/
def parameterName : String :=
  tag "if p.Name == \"\"" ++ "arg" ++ output "forloop.index0" ++ tag "else" ++ output "p.Name" ++
    tag "endif"

/-- The parameters with their types. -/
def parameterList : String :=
  tag "for p in Parameters" ++ separator ++ parameterName ++ " " ++ output "p.TypeExpr" ++
    tag "endfor"

/-- The parameters as arguments of a call, each behind `front`; variadic ones are spread. -/
def argumentList (front : String) : String :=
  tag "for p in Parameters" ++ separator ++ front ++ parameterName ++
    tag "if p.TypeExpr contains \"...\"" ++ "..." ++ tag "endif" ++ tag "endfor"

/-- The results: nothing, a bare type, or a list in parentheses. -/
def resultList : String :=
  tag "if Returns.size == 1" ++ " " ++ output "Returns[0]" ++ tag "elsif Returns.size > 1" ++
    " (" ++ tag "for r in Returns" ++ separator ++ output "r" ++ tag "endfor" ++ ")" ++ tag "endif"

/-- A method that panics. -/
def stub : String :=
  "func (r *" ++ output "ReceiverType" ++ ") " ++ output "Name" ++ "(" ++ parameterList ++ ")" ++
    resultList ++ " \x7b\n\tpanic(\"not implemented\")\n\x7d\n"

/-- A method that calls a function field of its receiver. -/
def mock : String :=
  "func (m *" ++ output "ReceiverType" ++ "Mock) " ++ output "Name" ++ "(" ++ parameterList ++
    ")" ++ resultList ++ " \x7b\n\t" ++ tag "if Returns.size > 0" ++ "return " ++ tag "endif" ++
    "m." ++ output "Name" ++ "Func(" ++ argumentList "" ++ ")\n\x7d\n"

/-- A table of test cases and the loop that runs them. -/
def test : String :=
  "func Test" ++ output "ReceiverType" ++ "_" ++ output "Name" ++ "(t *testing.T) \x7b\n" ++
    "\ttype args struct \x7b\n" ++
    tag "for p in Parameters" ++ "\t\t" ++ parameterName ++ " " ++
    output "p.TypeExpr | replace: \"...\", \"[]\"" ++ "\n" ++ tag "endfor" ++ "\t\x7d\n" ++
    "\ttests := []struct \x7b\n" ++
    "\t\tname string\n" ++
    "\t\targs args\n" ++
    tag "for r in Returns" ++ "\t\twant" ++ output "forloop.index0" ++ " " ++ output "r" ++ "\n" ++
    tag "endfor" ++
    "\t\x7d\x7b\n" ++
    "\t\t// add test cases here\n" ++
    "\t\x7d\n" ++
    "\tfor _, tt := range tests \x7b\n" ++
    "\t\tt.Run(tt.name, func(t *testing.T) \x7b\n" ++
    "\t\t\tvar r " ++ output "ReceiverType" ++ "\n" ++
    "\t\t\t" ++ tag "for r in Returns" ++ separator ++ "got" ++ output "forloop.index0" ++
    tag "endfor" ++
    tag "if Returns.size > 0" ++ " := " ++ tag "endif" ++ "r." ++ output "Name" ++ "(" ++
    argumentList "tt.args." ++ ")\n" ++
    tag "for r in Returns" ++ "\t\t\tif !reflect.DeepEqual(got" ++ output "forloop.index0" ++
    ", tt.want" ++ output "forloop.index0" ++ ") \x7b\n" ++
    "\t\t\t\tt.Errorf(\"" ++ output "Name" ++ "() got" ++ output "forloop.index0" ++
    " = %v, want %v\", got" ++ output "forloop.index0" ++ ", tt.want" ++
    output "forloop.index0" ++ ")\n" ++
    "\t\t\t\x7d\n" ++
    tag "endfor" ++ "\t\t\x7d)\n" ++
    "\t\x7d\n" ++
    "\x7d\n"

end MethodSkeleton.Builtin

namespace MethodSkeleton

/-- The registry of the templates that come with the program. -/
def Registry.builtin : Registry :=
  NameMap.empty.insertAll
    [("stub", Builtin.stub), ("mock", Builtin.mock), ("test", Builtin.test)]

end MethodSkeleton
