import CompressionSweep.Text.Blank

/-! The compression algorithms of a sweep. Their order in `Algorithm.all` is the order in which
a full sweep runs them and in which a report lists them. -/

namespace CompressionSweep

inductive Algorithm where
  | none
  | gzip
  | lz4framed
  | zlib
  | xz
  | bzip2
  | lzma
  | zstd
  | snappy
  deriving DecidableEq, Repr

namespace Algorithm

def all : List Algorithm :=
  [none, gzip, lz4framed, zlib, xz, bzip2, lzma, zstd, snappy]

def standard : Algorithm := lz4framed

instance : Inhabited Algorithm := ⟨standard⟩

def name : Algorithm → String
  | none => "NONE"
  | gzip => "GZIP"
  | lz4framed => "LZ4FRAMED"
  | zlib => "ZLIB"
  | xz => "XZ"
  | bzip2 => "BZIP2"
  | lzma => "LZMA"
  | zstd => "ZSTD"
  | snappy => "SNAPPY"

/-- Position in the sweep order. A name that is no algorithm comes after all of them. -/
def rank (text : String) : Nat :=
  all.findIdx (fun a => a.name == text)

theorem rank_injective {a b : Algorithm} (h : rank a.name = rank b.name) : a = b := by
  revert h
  cases a <;> cases b <;> decide

theorem name_injective {a b : Algorithm} (h : a.name = b.name) : a = b :=
  rank_injective (congrArg rank h)

def ofName? (text : String) : Option Algorithm :=
  all.find? (fun a => a.name == text.map Char.toUpper)

/-- Reads a name in any mixture of ASCII case, with white space around it. -/
def parse? (text : String) : Option Algorithm :=
  ofName? (Text.trim Text.isBlank text)

def unknownMessage (text : String) : String :=
  "unknown compression algorithm: " ++ text

end Algorithm

end CompressionSweep
