import PipeWorks.Python.Exception

/-!
# The configuration of a pipeline (`nvidia_pipe/cli.py`)

What `yaml.safe_load` gives, as far as the code looks at it, and `inference_parameters`.
-/

set_option autoImplicit false

namespace PipeWorks.NvidiaPipe.Config

open PipeWorks.Python

/-- A value built by `yaml.safe_load`. -/
inductive Yaml where
  | null
  | bool (b : Bool)
  | int (i : Int)
  | str (s : String)
  /-- any other scalar -/
  | scalar (tag text : String)
  | sequence (items : List Yaml)
  | mapping (members : List (Yaml × Yaml))
  deriving Repr

/-- A `dict`. -/
abbrev Mapping := List (Yaml × Yaml)

/-- `mapping.get(key)`. -/
def Mapping.get? (key : String) : Mapping → Option Yaml
  | [] => none
  | (.str k, value) :: members => if k = key then some value else Mapping.get? key members
  | _ :: members => Mapping.get? key members

/-- `inference_parameters`. -/
def inferenceParameters (config : Mapping) : Except PyError Mapping :=
  match config.get? "inference" with
  | some (.mapping inference) =>
    match Mapping.get? "parameters" inference with
    | none | some .null => .ok []
    | some (.mapping parameters) => .ok parameters
    | some _ => .error .valueError
  | _ => .ok []

end PipeWorks.NvidiaPipe.Config
