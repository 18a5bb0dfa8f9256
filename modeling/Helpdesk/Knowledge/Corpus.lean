/-
  File:      Helpdesk/Knowledge/Corpus.lean
  Subject:   The validation of a processed document (ingestion/validation/corpus.py).

  The ratios are exact here; no quotient of two counts lies between a bound of the
  source and the `float` nearest to it.
-/
import Helpdesk.Knowledge.Chunking
import Helpdesk.Knowledge.Governance
import Mathlib.Data.Rat.Defs
import Mathlib.Algebra.GroupWithZero.Nat

namespace Helpdesk.Knowledge

open Helpdesk.Python

structure ValidationContext where
  expectedLanguage : String
  releaseValid : Bool
  productValid : Bool
  sourcePermissionValid : Bool
  documentApprovalStatus : DocumentApproval
  canonicalUrl : Option String
  copyrightNotice : Option String
  embeddedCount : Nat
  deriving DecidableEq, Repr

inductive ValidationFailure where
  | emptyExtraction | noChunks | incompleteEmbeddings | invalidRelease | invalidProductModule
  | invalidSourcePermission | brokenCharacterRatio
  deriving DecidableEq, Repr

inductive ValidationWarning where
  | highDuplicateRatio | documentNotApproved | canonicalUrlMissing | copyrightNoticeMissing
  | languageRequiresReview | headingsMissing
  deriving DecidableEq, Repr

structure ValidationMetrics where
  chunkCount : Nat
  embeddedChunkCount : Nat
  averageChunkTokens : ℚ
  maximumChunkTokens : Nat
  duplicateRatio : ℚ
  brokenCharacterRatio : ℚ
  tableSectionCount : Nat
  headingChunkCount : Nat
  deriving DecidableEq

structure ValidationResult where
  status : ValidationStatus
  failures : List ValidationFailure
  warnings : List ValidationWarning
  metrics : ValidationMetrics
  deriving DecidableEq

/-- U+FFFD, which stands for what could not be decoded. -/
def replacementCharacter : Char := Char.ofNat 0xfffd

/-- `text.lower().split("-", 1)[0]`. -/
def primaryLanguage (code : String) : String :=
  String.ofList ((lower code).toList.takeWhile (· ≠ '-'))

/-- A text that is there and is not empty. -/
def present (text : Option String) : Bool := text.any (· ≠ "")

/-- `validate_corpus`. -/
def validateCorpus (parsed : ParsedDocument) (chunks : List Chunk) (context : ValidationContext) :
    ValidationResult :=
  let normalized := parsed.normalizedText
  let brokenRatio : ℚ :=
    (normalized.toList.count replacementCharacter : ℚ) / (max 1 normalized.length : Nat)
  let duplicateRatio : ℚ :=
    1 - ((chunks.map (·.contentHash)).dedup.length : ℚ) / (max 1 chunks.length : Nat)
  let headingCount := chunks.countP fun chunk => chunk.headingPath ≠ []
  let sizes : List Nat := chunks.map (·.tokenCount)
  let failures := raised
    [(stripText normalized = "", .emptyExtraction),
     (chunks = [], .noChunks),
     (context.embeddedCount ≠ chunks.length, .incompleteEmbeddings),
     (!context.releaseValid, .invalidRelease),
     (!context.productValid, .invalidProductModule),
     (!context.sourcePermissionValid, .invalidSourcePermission),
     (1 / 1000 < brokenRatio, ValidationFailure.brokenCharacterRatio)]
  let warnings := raised
    [(1 / 5 < duplicateRatio, .highDuplicateRatio),
     (context.documentApprovalStatus ≠ .approved, .documentNotApproved),
     (!present context.canonicalUrl, .canonicalUrlMissing),
     (!present context.copyrightNotice, .copyrightNoticeMissing),
     (primaryLanguage context.expectedLanguage ≠ "en", .languageRequiresReview),
     (chunks ≠ [] && headingCount = 0, ValidationWarning.headingsMissing)]
  { status := if failures ≠ [] then .failed else if warnings ≠ [] then .warning else .passed
    failures
    warnings
    metrics :=
      { chunkCount := chunks.length
        embeddedChunkCount := context.embeddedCount
        averageChunkTokens := (sizes.sum : ℚ) / (max 1 sizes.length : Nat)
        maximumChunkTokens := sizes.foldr max 0
        duplicateRatio
        brokenCharacterRatio := brokenRatio
        tableSectionCount := parsed.sections.countP fun section_ => section_.tableMarkdown ≠ none
        headingChunkCount := headingCount } }

end Helpdesk.Knowledge
