/-! The keys of the settings: what each is called in a settings file and in the environment, and what it
is when neither tells. -/

namespace SourceIndex.Settings

inductive Key where
  | model
  | modelPath
  | contextLength
  | pooling
  | normalize
  | maxWorkers
  | filter
  deriving DecidableEq, Repr

namespace Key

def all : List Key :=
  [.model, .modelPath, .contextLength, .pooling, .normalize, .maxWorkers, .filter]

theorem mem_all (k : Key) : k ∈ all := by
  cases k <;> simp [all]

/-- The name in a settings file. -/
def inFile : Key → String
  | .model => "embedding_model"
  | .modelPath => "model_path"
  | .contextLength => "context_length"
  | .pooling => "pooling"
  | .normalize => "normalize"
  | .maxWorkers => "max_workers"
  | .filter => "filter_insignificant"

/-- The name of the variable in the environment. -/
def inEnvironment : Key → String
  | .model => "EMBEDDING_MODEL"
  | .modelPath => "EMBEDDING_MODEL_PATH"
  | .contextLength => "EMBEDDING_CONTEXT_LENGTH"
  | .pooling => "EMBEDDING_POOLING"
  | .normalize => "EMBEDDING_NORMALIZE"
  | .maxWorkers => "EMBEDDING_MAX_WORKERS"
  | .filter => "CHUNK_FILTER_INSIGNIFICANT"

/-- The value that stands unless another is given. -/
def builtIn : Key → String
  | .model => "sentence-transformers/all-MiniLM-L6-v2"
  | .modelPath => ""
  | .contextLength => "256"
  | .pooling => "mean"
  | .normalize => "true"
  | .maxWorkers => ""
  | .filter => "true"

end Key

end SourceIndex.Settings
