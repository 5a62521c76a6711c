/-!
# Reading a file

Reading a file at a path ends in one of three ways: with the file's bytes; with a refusal to open
it, when nothing is at the path, a component of the path is a file rather than a directory, a
name is longer than a directory entry can be, or following the path needs too many symbolic
links; or with an opened file that cannot be read, which is what a directory is, and a device
that fails its reads. The refusals carry the operating system's words and numbers, as its
messages show them.

Tracker data is read from the bytes as they come. Metadata is read as text first, which fails
when the bytes are not UTF-8; `FileRead.text?` says how.

Where a path leads is the business of `RegionTrack.FileSystem`.
-/

namespace RegionTrack

/-- Why the operating system refused to open or read a file. -/
inductive OsError where
  /-- Nothing is at the path. -/
  | notFound
  /-- The device failed to transfer the data. -/
  | inputOutput
  /-- A component of the path that should be a directory is a file. -/
  | notADirectory
  /-- The path names a directory, which has no text to read. -/
  | isADirectory
  /-- The path, or one name in it, is longer than the system allows. -/
  | nameTooLong
  /-- Following the path needs more symbolic links than the system follows. -/
  | tooManyLinks
deriving Repr, DecidableEq

namespace OsError

/-- The error number. -/
def code : OsError → Nat
  | .notFound => 2
  | .inputOutput => 5
  | .notADirectory => 20
  | .isADirectory => 21
  | .nameTooLong => 36
  | .tooManyLinks => 40

/-- The description of the error. -/
def description : OsError → String
  | .notFound => "No such file or directory"
  | .inputOutput => "Input/output error"
  | .notADirectory => "Not a directory"
  | .isADirectory => "Is a directory"
  | .nameTooLong => "File name too long"
  | .tooManyLinks => "Too many levels of symbolic links"

/-- The text of the error: its description, then its number. -/
def message (e : OsError) : String :=
  e.description ++ " (os error " ++ toString e.code ++ ")"

/-- The error with number `n`, if it is one of these. -/
def ofCode? (n : Nat) : Option OsError :=
  [OsError.notFound, .inputOutput, .notADirectory, .isADirectory, .nameTooLong,
    .tooManyLinks].find? (·.code = n)

end OsError

/-- What reading a path gave. -/
inductive FileRead where
  /-- The file's bytes. -/
  | content (bytes : List UInt8)
  /-- The path could not be opened. -/
  | unopenable (cause : OsError)
  /-- The path was opened, but reading it failed. -/
  | unreadable (cause : OsError)
deriving Repr, DecidableEq

namespace FileRead

/-- The words for bytes that were read as text and are not UTF-8. -/
def notUtf8Message : String := "stream did not contain valid UTF-8"

/-- The read of a file holding `text`. -/
def ofText (text : String) : FileRead := .content text.toUTF8.toList

/-- The file read as text, or the words for why it could not be: the system's refusal, or
bytes that are not UTF-8. -/
def text? : FileRead → Except String String
  | .content bytes =>
    match String.fromUTF8? (ByteArray.mk bytes.toArray) with
    | some text => .ok text
    | none => .error notUtf8Message
  | .unopenable e | .unreadable e => .error e.message

end FileRead

end RegionTrack
