import ScopeFrames.CommandLine
import Std.Time.DateTime.Timestamp

namespace ScopeFrames

def now : IO Timestamp := do
  let time ← Std.Time.Timestamp.now
  return ⟨time.val.second.val, time.val.nano.val.toNat⟩

def contentAt (path : String) : IO (Option FileContent) := do
  match ← (IO.FS.readBinFile path).toBaseIO with
  | .ok bytes =>
    let text := match String.fromUTF8? bytes with
      | some text => .ok text
      | none => .error "stream did not contain valid UTF-8"
    return some ⟨bytes.size, text⟩
  | .error (.permissionDenied ..) => return some ⟨0, .error "Permission denied (os error 13)"⟩
  | .error _ => return none

def environment : IO (String → Option String) := do
  let values ← Setting.all.mapM fun s => do return (s.name, ← IO.getEnv s.name)
  return fun name => (values.lookup name).join

end ScopeFrames

open ScopeFrames in
def main (args : List String) : IO UInt32 := do
  let time ← now
  let file ← contentAt (args.head?.getD "")
  let surroundings : Surroundings :=
    { clock := ⟨time.text, time.rfc3339⟩
      environment? := ← environment
      file? := fun _ => file }
  let transcript := CommandLine.run surroundings "scopetab" args
  IO.print transcript.output
  IO.eprint transcript.errors
  return transcript.exit.toUInt32
