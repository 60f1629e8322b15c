import Annealing.Text.Basic

/-!
# Packed — what may be wrong with packed data

Every cause that keeps data from being unpacked, format by format.  Each carries what its message
shows.
-/

namespace Annealing

/-- What is wrong with deflated data. -/
inductive DeflateProblem where
  | blockKind
  | storedLengths
  | tooManySymbols
  | codeLengths
  | repeatedLength
  | noEndOfBlock
  | literalCode
  | distanceCode
  | literal
  | distance
  | tooFarBack
deriving DecidableEq, Repr

/-- The kinds of archives: of files behind one another with a directory of them at the end, and of
blocks. -/
inductive ArchiveKind where
  | zip
  | tape
deriving DecidableEq, Repr

/-- What is wrong with an archive of files behind one another. -/
inductive ZipProblem where
  | notZip
  | severalDisks
  | directoryPlace
  | directoryEnds
  | directoryMark
  | extraField (kind length : Nat)
  | longField (name : String)
  | headerPlace
  | headerEnds
  | headerMark
  | otherName (listed : Text) (found : List UInt8)
  | sum (name : Text)
  | version (tenths : Nat)
  | patched
  | strongEncryption
  | encrypted (name : Text)
  | method
  /-- The data end although more of them are announced. -/
  | ends
deriving DecidableEq, Repr

/-- What is wrong with the header of a file in an archive of blocks. -/
inductive HeaderProblem where
  /-- There are no data left. -/
  | empty
  | truncated
  /-- The header is all zeros, which ends an archive. -/
  | zeros
  | badSum
  | badField
deriving DecidableEq, Repr

/-- What is wrong with an archive of blocks. -/
inductive TapeProblem where
  | empty
  | header (problem : HeaderProblem)
  | deflated (problem : DeflateProblem)
  | ends
  | notGzip
  | notBzip
  | notLzma
  /-- What was found when the data were taken for packed in each way and for not packed. -/
  | noneFits (gzip bzip lzma plain : TapeProblem)
  /-- The file is a link to another one, which there is not. -/
  | brokenLink (target : Text)
  | endlessLink
  | noSuchFile (name : Text)
  /-- The file has no contents. -/
  | noContents
deriving DecidableEq, Repr

/-- Why packed data cannot be unpacked. -/
inductive PackProblem where
  | ended
  | placeTooLarge
  -- Gzip
  | notGzip (front : List UInt8)
  | unknownMethod
  | checksum (stored computed : Nat)
  | badLength
  | deflate (problem : DeflateProblem)
  -- Blocks
  | badStream
  -- LZMA
  | unknownFormat
  | badOptions
  | corrupt
  -- Archives
  | zip (problem : ZipProblem)
  | tape (problem : TapeProblem)
deriving DecidableEq, Repr

end Annealing
