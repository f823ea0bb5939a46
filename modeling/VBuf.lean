import VBuf.V06.WriterRejection
import VBuf.TypeScript.Agreement
import VBuf.Lib.Utf8
import VBuf.Ml.Error
import VBuf.Ml.Representation
import VBuf.Ml.LayoutSpec
import VBuf.Ggml.ReadyObtain
import VBuf.Ggml.TieredMoves
import VBuf.Compat.Admission
import VBuf.Ggml.ProgressiveRun
import VBuf.Ggml.TensorWaveSafety
import VBuf.Ggml.OnDemandRun
import VBuf.Ggml.ResidencyIdentity
import VBuf.Ggml.LocalAccounting
import VBuf.Runtime.ChunkedAttention
import VBuf.Ggml.AttentionAgreement
import VBuf.Ggml.PortableFailure
import VBuf.Ggml.GenerationAgreement
import VBuf.Android.DirectSession
import VBuf.Ggml.ResidualStream
import VBuf.Tokenizer.Agreement
import VBuf.Ml.RangeExecution
import VBuf.Ml.LayoutEmission
import VBuf.Ml.ConsumerTypes
import VBuf.Convert.PlanAgreement
import VBuf.Runtime.ExpertRegion
import VBuf.Ml.QuantizationCodec
import VBuf.Ml.SourceProfileCodec
import VBuf.Ml.MoeProfileCodec
import VBuf.Ml.NestedOverlap
import VBuf.Runtime.LayerComplete
import VBuf.Tokenizer.RoundTrip
import VBuf.Ml.TokenizerView
import VBuf.Runtime.RestoreKv
import VBuf.Runtime.CheckpointLog
import VBuf.Runtime.EmbeddingLookup
import VBuf.Runtime.GenerateContract
import VBuf.Runtime.GraphSafety
import VBuf.Lib.MergeRuns
import VBuf.Compat.ChatTemplate
import VBuf.Android.MergeOrder
import VBuf.Tokenizer.SpecialSplit
import VBuf.Ggml.SourceSelection
import VBuf.Ggml.IndexedExpert
import VBuf.Ggml.ResidencyRejection
import VBuf.Ggml.TieredFailure
import VBuf.Compat.EventStream
import VBuf.Ml.F8Exact
import VBuf.Ggml.PrefetchExact
import VBuf.Runtime.GraphAbi
import VBuf.Import.HeaderExact
import VBuf.Ml.NestedCodec
import VBuf.Consumer.Adapter
import VBuf.Consumer.TensorBinding
import VBuf.Consumer.ModelSource
import VBuf.Consumer.SourcesAgree
import VBuf.Consumer.Prepare
import VBuf.Legacy.ColumnLookup
import VBuf.Legacy.AtomicColumn
import VBuf.Convert.TensorPlans
import VBuf.Ggml.StripedRuns
import VBuf.Ggml.HttpSteps
import VBuf.Runtime.VocabularyProjection
import VBuf.Ml.WrittenArtifact
