import Annealing.Packed.Problem
import Annealing.Text.Quoted

/-!
# Packed — messages

`PackProblem.wording` is the message of every problem of packed data.  Names and octets are shown
between quotes.
-/

namespace Annealing

/-- A number in base 16 behind the mark of this base. -/
def hexText (n : Nat) : String := "0x" ++ String.ofList (Text.hexDigits 1 n)

/-- A count of tenths with a point. -/
def tenthsText (tenths : Nat) : String := toString (tenths / 10) ++ "." ++ toString (tenths % 10)

/-- A name between quotes. -/
def nameText (t : Text) : String := String.ofList (Text.quoted t)

/-- A sentence on a name, itself between quotes. -/
def quotedSentence (front : String) (name : Text) (back : String) : String :=
  nameText (Text.ofString front ++ Text.ofChars (Text.quoted name) ++ Text.ofString back)

/-- The wording of a problem of deflated data. -/
def DeflateProblem.wording (p : DeflateProblem) : String :=
  "Error -3 while decompressing data: " ++
    match p with
    | .blockKind => "invalid block type"
    | .storedLengths => "invalid stored block lengths"
    | .tooManySymbols => "too many length or distance symbols"
    | .codeLengths => "invalid code lengths set"
    | .repeatedLength => "invalid bit length repeat"
    | .noEndOfBlock => "invalid code -- missing end-of-block"
    | .literalCode => "invalid literal/lengths set"
    | .distanceCode => "invalid distances set"
    | .literal => "invalid literal/length code"
    | .distance => "invalid distance code"
    | .tooFarBack => "invalid distance too far back"

/-- The wording of a problem of an archive with a directory. -/
def ZipProblem.wording : ZipProblem → String
  | .notZip => "File is not a zip file"
  | .severalDisks => "zipfiles that span multiple disks are not supported"
  | .directoryPlace => "Bad offset for central directory"
  | .directoryEnds => "Truncated central directory"
  | .directoryMark => "Bad magic number for central directory"
  | .extraField kind length =>
      "Corrupt extra field " ++ String.ofList (Text.hexDigits 4 kind) ++
        " (size=" ++ toString length ++ ")"
  | .longField name => "Corrupt zip64 extra field. " ++ name ++ " not found."
  | .headerPlace => "[Errno 22] Invalid argument"
  | .headerEnds => "Truncated file header"
  | .headerMark => "Bad magic number for file header"
  | .otherName listed found =>
      "File name in directory " ++ nameText listed ++ " and header " ++
        String.ofList (Text.quotedOctets found)
        ++ " differ."
  | .sum name => "Bad CRC-32 for file " ++ nameText name
  | .version tenths => "zip file version " ++ tenthsText tenths
  | .patched => "compressed patched data (flag bit 5)"
  | .strongEncryption => "strong encryption (flag bit 6)"
  | .encrypted name => "File " ++ nameText name ++ " is encrypted, password required for extraction"
  | .method => "That compression method is not supported"
  | .ends => ""

/-- The wording of a problem of a header. -/
def HeaderProblem.wording : HeaderProblem → String
  | .empty => "empty header"
  | .truncated => "truncated header"
  | .zeros => "end of file header"
  | .badSum => "bad checksum"
  | .badField => "invalid header"

/-- The wording of a problem of an archive of blocks. -/
def TapeProblem.wording : TapeProblem → String
  | .empty => "empty file"
  | .header problem => problem.wording
  | .deflated problem => "zlib error: " ++ problem.wording
  | .ends => "unexpected end of data"
  | .notGzip => "not a gzip file"
  | .notBzip => "not a bzip2 file"
  | .notLzma => "not an lzma file"
  | .noneFits gzip bzip lzma plain =>
      "file could not be opened successfully:\n- method gz: ReadError('" ++ gzip.wording
        ++ "')\n- method bz2: ReadError('" ++ bzip.wording ++
        "')\n- method xz: ReadError('" ++ lzma.wording
        ++ "')\n- method tar: ReadError('" ++ plain.wording ++ "')"
  | .brokenLink target => quotedSentence "linkname " target " not found"
  | .endlessLink => "the file is a link to itself"
  | .noSuchFile name => quotedSentence "filename " name " not found"
  | .noContents => ""

/-- The wording of a problem of packed data. -/
def PackProblem.wording : PackProblem → String
  | .ended => "Compressed file ended before the end-of-stream marker was reached"
  | .placeTooLarge => "cannot fit 'int' into an offset-sized integer"
  | .notGzip front => "Not a gzipped file (" ++ String.ofList (Text.quotedOctets front) ++ ")"
  | .unknownMethod => "Unknown compression method"
  | .checksum stored computed => "CRC check failed " ++ hexText stored ++ " != " ++ hexText computed
  | .badLength => "Incorrect length of data produced"
  | .deflate problem => problem.wording
  | .badStream => "Invalid data stream"
  | .unknownFormat => "Input format not supported by decoder"
  | .badOptions => "Invalid or unsupported options"
  | .corrupt => "Corrupt input data"
  | .zip problem => problem.wording
  | .tape problem => problem.wording

end Annealing
