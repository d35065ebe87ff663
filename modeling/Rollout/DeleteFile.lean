import Rollout.DeleteEntry
import Rollout.LoadError
import Rollout.Kdl.Reader
import Rollout.Text.Cut

/-! Delete files. Every node names one object:

    delete "auto-tag/my tag"
    delete type="builtin:alerting.profile" id="p1" project="infra"
    delete type="management-zone" name="Zone"
-/

namespace Rollout.DeleteFile

/-- How messages call an entry. -/
def field (index : Nat) : String := "delete entry " ++ toString index

/-- The short form `type/identifier`. The type contains no slash, the identifier may. -/
def ofShortForm (field text : String) : Except LoadProblem DeleteEntry :=
  match Text.cutFirst '/' text.toList with
  | none =>
    .error (.invalidValue field ("'" ++ text ++ "' is not of the form type/identifier"))
  | some (configType, identifier) =>
    if configType.isEmpty || identifier.isEmpty then
      .error (.invalidValue field ("'" ++ text ++ "' has an empty type or identifier"))
    else .ok ⟨.ofList configType, .ofList identifier, none⟩

/-- The full form, in properties. -/
def ofProperties (field : String) (node : Kdl.Node) : Except LoadProblem DeleteEntry :=
  match node.textProperty? "type" with
  | none => .error (.missingField ("type of " ++ field))
  | some configType =>
    let entry (identifier : String) : DeleteEntry :=
      ⟨configType, identifier, node.textProperty? "project"⟩
    match node.textProperty? "id", node.textProperty? "name" with
    | some id, none => .ok (entry id)
    | none, some name => .ok (entry name)
    | some _, some _ => .error (.invalidValue field "only one of 'id' and 'name' may be set")
    | none, none => .error (.missingField ("id or name of " ++ field))

/-- The entry of a node that stands at the given place in the document. -/
def entryOfNode (index : Nat) (node : Kdl.Node) : Except LoadProblem DeleteEntry :=
  if node.name = "delete" then
    match node.textArgument? 0 with
    | some text => ofShortForm (field index) text
    | none => ofProperties (field index) node
  else .error (.invalidValue (field index) ("expected 'delete', found '" ++ node.name ++ "'"))

/-- The entries of nodes of which the first stands at the given place, and the problems of the
others. -/
def collect : Nat → Kdl.Document → List DeleteEntry × List LoadProblem
  | _, [] => ([], [])
  | index, node :: rest =>
    let (entries, problems) := collect (index + 1) rest
    match entryOfNode index node with
    | .ok entry => (entry :: entries, problems)
    | .error problem => (entries, problem :: problems)

/-- All entries of a document, or all of its problems. -/
def ofDocument (document : Kdl.Document) : Except LoadError (List DeleteEntry) :=
  let (entries, problems) := collect 0 document
  let absent := if document.isEmpty then [.missingField "delete entries"] else []
  LoadError.check (problems ++ absent) entries

def ofText (text : String) : Except LoadError (List DeleteEntry) :=
  match Kdl.Document.parse? text with
  | some document => ofDocument document
  | none => .error (.single .malformed)

end Rollout.DeleteFile
