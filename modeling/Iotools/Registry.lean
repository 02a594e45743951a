import Iotools.IntrusiveList
import Iotools.Tables

namespace Iotools
open Numeral Interaction

-- group_head of commands.c and the `next` fields of the registered groups.
abbrev Registry := IntrusiveList.Links Group

-- insert group at the beginning of the list.
def registerCommandGroup (registry : Registry) (group : Group) : Registry := IntrusiveList.push registry group

def registerAll (order : List Group) : Registry := order.foldl registerCommandGroup IntrusiveList.empty

-- The loop over one group's commands.
def locateIn (b : Build) (cmd : Text) (group : Group) : Option CmdInfo :=
  (group.commands b).find? (fun info => info.name.toList = cmd)

def locateCommand (b : Build) (registry : Registry) (fuel : Nat) (cmd : Text) : Option (Option CmdInfo) :=
  IntrusiveList.find registry.next (locateIn b cmd) fuel registry.head

-- The loops over all groups, with an inner loop over each group's commands.
def forGroups (registry : Registry) (fuel : Nat) (body : Group → Action Unit) : Action Unit :=
  IntrusiveList.each registry.next (.fault .unfinished) body fuel registry.head

def filenameMax : Nat := 4096

-- strrchr(text, '/'): what lies before the last slash and what lies behind it.
def splitLast : Text → Option (Text × Text)
  | [] => none
  | c :: rest =>
    match splitLast rest with
    | some (before,after) => some (c :: before,after)
    | none => if c = '/' then some ([],rest) else none

-- The directory and the name of the running binary; `none` stands for -1.
-- readlink does not terminate the buffer, which starts zeroed: a path that
-- fills it has no end.
def locatePathOfBinary : Action (Option (Text × Text)) := do
  match ← ask (.readlink "/proc/self/exe".toList) with
  | none => do
    ask (.stderr .noBinary)
    return none
  | some target =>
    if filenameMax ≤ target.length then .fault .pastNul
    else
      match splitLast target with
      | none => .fault .nullPointer
      | some (pathToBin,binName) => return some (pathToBin,binName)

-- snprintf cuts the name to what fits before the NUL.
def buildSymlinkName (pathToBin : Text) (cmd : CmdInfo) : Text :=
  (pathToBin ++ "/".toList ++ cmd.name.toList).take (filenameMax - 1)

def makeLink (pathToBin binName : Text) (cmd : CmdInfo) : Action Unit := do
  let linkName := buildSymlinkName pathToBin cmd
  ask (.stdout ("Creating link: ".toList ++ linkName ++ " -> ".toList ++ binName ++ "\n".toList))
  if (← ask (.symlink binName linkName)) ≠ 0 then ask (.stderr (.linkNotCreated linkName binName)) else pure ()

def makeCommandLinks (b : Build) (registry : Registry) (fuel : Nat) : Action Int := do
  match ← locatePathOfBinary with
  | none => return -1
  | some (pathToBin,binName) => do
    forGroups registry fuel (fun group => Prog.each (group.commands b) (makeLink pathToBin binName))
    return 0

def cleanLink (pathToBin : Text) (cmd : CmdInfo) : Action Unit := do
  let linkName := buildSymlinkName pathToBin cmd
  let r ← ask (.unlink linkName)
  if r < 0 then do
    if ← ask .errnoIsEnoent then pure () else complain (.linkNotRemoved linkName)
  else pure ()

def cleanCommandLinks (b : Build) (registry : Registry) (fuel : Nat) : Action Int := do
  match ← locatePathOfBinary with
  | none => return -1
  | some (pathToBin,_) => do
    forGroups registry fuel (fun group => Prog.each (group.commands b) (cleanLink pathToBin))
    return 0

-- "%s%s%s\n" and "  %s\n"
def groupLine (group : Group) : Text :=
  match group.description with
  | some description => (group.name ++ ": " ++ description ++ "\n").toList
  | none => (group.name ++ "\n").toList

def commandLine (cmd : CmdInfo) : Text := ("  " ++ cmd.name ++ "\n").toList

def listCommands (b : Build) (registry : Registry) (fuel : Nat) : Action Int := do
  forGroups registry fuel (fun group => do
    ask (.stdout (groupLine group))
    Prog.each (group.commands b) (fun cmd => ask (.stdout (commandLine cmd))))
  return 0

-- iotools.c
def versionText (progname : Text) : Text := progname ++ " version 1.6\n".toList

def iotoolsFallback (b : Build) (registry : Registry) (fuel : Nat) (argv : List Arg) : Action Int := do
  if argv.length ≠ 2 then do
    ask (.stderr (.helpText (← argAt argv 0)))
    return -1
  else do
    let command ← argAt argv 1
    if command = "--help".toList then do
      ask (.stdout (usageText (← argAt argv 0)))
      return 0
    else if command = "--make-links".toList then makeCommandLinks b registry fuel
    else if command = "--clean-links".toList then cleanCommandLinks b registry fuel
    else if command = "--list-cmds".toList then listCommands b registry fuel
    else if command = "-v".toList ∨ command = "--version".toList then do
      ask (.stdout (versionText (← argAt argv 0)))
      return 0
    else do
      ask (.stderr (.notSupported command))
      ask (.stderr (.helpText (← argAt argv 0)))
      return -1

def located (found : Option (Option CmdInfo)) : Action (Option CmdInfo) :=
  match found with
  | some result => return result
  | none => .fault .unfinished

def commandName (argv0 : Text) : Text :=
  match splitLast argv0 with
  | some (_,name) => name
  | none => argv0

def runCommand (b : Build) (registry : Registry) (fuel : Nat) (argv : List Arg) : Action Int := do
  let first ← if 1 < argv.length then do located (locateCommand b registry fuel (← argAt argv 1)) else pure none
  match first with
  | some info => runInfo b fuel (argv.drop 1) info
  | none => do
    match ← located (locateCommand b registry fuel (commandName (← argAt argv 0))) with
    | some info => runInfo b fuel argv info
    | none => iotoolsFallback b registry fuel argv

-- main: the exit status.
def exitStatus (rc : Int) : Nat := if rc < 0 then 1 else 0

end Iotools
