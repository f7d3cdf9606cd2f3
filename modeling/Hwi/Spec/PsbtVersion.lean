import Hwi.Spec.Psbt

/-! Moving a PSBT between versions. The object is changed in place, so each
step is a change of the state, and an exception leaves the state as it is by
then. -/

namespace Hwi

namespace PSBT

/-- A method of the PSBT object that may raise. -/
abbrev Method (α : Type) := EStateM Exc PSBT α

def convertVersion (version : ℕ) : Method Unit := do
  modify fun self => { self with version }
  modify fun self => { self with inputs := self.inputs.map fun psbtIn => { psbtIn with version } }
  modify fun self => { self with outputs := self.outputs.map fun psbtOut => { psbtOut with version } }

/-- Sets this PSBT to version 2. -/
def convertToV2 : Method Unit := convertVersion 2

/-- Sets this PSBT to version 0. -/
def convertToV0 (R : Runtime) : Method Unit := do
  let self ← get
  let tx ← (match self.getUnsignedTx R with
    | .ok tx => pure tx
    | .error e => throw e : Method CTransaction)
  convertVersion 0
  modify fun self => { self with tx }
  modify fun self => { self with explicitVersion := false }

end PSBT

end Hwi
