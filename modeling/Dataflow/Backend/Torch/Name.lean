/-! Names under which the torch backend has something that is no element type: functions, classes, modules and
    settings. A name that it does not have at all is another kind of fault. -/

namespace Dataflow.Torch

/-- The names of the backend that are not those of element types, several to a line and in the order of letters. -/
def otherNames : List String :=
  ["abs abs_ absolute accelerator AcceleratorError acos acos_ acosh acosh_ adaptive_avg_pool1d",
    "adaptive_max_pool1d add addbmm addcdiv addcmul addmm addmv addmv_ addr adjoint affine_grid_generator",
    "AggregationType alias_copy AliasDb __all__ all __all_and_float_types allclose alpha_dropout",
    "alpha_dropout_ amax amin aminmax amp __and__ angle __annotations__ any AnyType ao _appdirs arange arccos",
    "arccos_ arccosh arccosh_ arcsin arcsin_ arcsinh arcsinh_ arctan arctan_ arctan2 arctanh arctanh_",
    "are_deterministic_algorithms_enabled argmax argmin argsort Argument argwhere as_strided as_strided_",
    "as_strided_copy as_strided_scatter as_tensor asarray asin asin_ asinh asinh_ atan atan_ atan2 atanh",
    "atanh_ atleast_1d atleast_2d atleast_3d autocast autocast_decrement_nesting autocast_increment_nesting",
    "autograd avg_pool1d _awaits AwaitType backends baddbmm bartlett_window batch_norm",
    "batch_norm_backward_elemt batch_norm_backward_reduce batch_norm_elemt batch_norm_gather_stats",
    "batch_norm_gather_stats_with_counts batch_norm_stats batch_norm_update_stats BenchmarkConfig",
    "BenchmarkExecutionStats bernoulli BFloat16Storage BFloat16Tensor bilinear",
    "binary_cross_entropy_with_logits bincount binomial bitwise_and bitwise_left_shift bitwise_not bitwise_or",
    "bitwise_right_shift bitwise_xor blackman_window Block block_diag bmm BoolStorage BoolTensor BoolType",
    "broadcast_shapes broadcast_tensors broadcast_to bucketize BufferDict __builtins__ builtins ByteStorage",
    "ByteTensor _C __cached__ Callable CallStack can_cast Capsule cartesian_prod cat ccol_indices_copy cdist",
    "ceil ceil_ celu celu_ chain_matmul channel_shuffle channels_last channels_last_3d CharStorage CharTensor",
    "cholesky cholesky_inverse cholesky_solve choose_qparams_optimized chunk clamp clamp_ clamp_max",
    "clamp_max_ clamp_min clamp_min_ __class__ _classes classes ClassType clear_autocast_cache clip clip_",
    "clone Code col_indices_copy column_stack combinations CompilationUnit _compile compile",
    "compiled_with_cxx11_abi compiler CompleteArgumentSpec complex ComplexDoubleStorage ComplexFloatStorage",
    "ComplexType concat concatenate ConcreteModuleType cond __config__ conj conj_physical conj_physical_",
    "constant_pad_nd contiguous_format conv1d conv2d conv3d conv_tbc conv_transpose1d conv_transpose2d",
    "conv_transpose3d convolution copysign corrcoef cos cos_ cosh cosh_ cosine_embedding_loss",
    "cosine_similarity count_nonzero cov cpu cross crow_indices_copy ctc_loss ctypes cuda",
    "CudaBFloat16StorageBase cudnn_affine_grid_generator cudnn_batch_norm cudnn_convolution",
    "cudnn_convolution_add_relu cudnn_convolution_relu cudnn_convolution_transpose cudnn_grid_sampler",
    "cudnn_is_acceptable cummax cummin cumprod cumsum cumulative_trapezoid _custom_op _decomp",
    "DeepCopyMemoTable default_generator DEFAULT_PROTOCOL deg2rad deg2rad_ __delattr__ _deploy dequantize",
    "DeserializationStorageContext det detach detach_ detach_copy device DeviceObjType diag diag_embed",
    "diagflat diagonal diagonal_copy diagonal_scatter __dict__ DictType diff digamma __dir__",
    "DisableTorchFunction DisableTorchFunctionSubclass _dispatch DispatchKey DispatchKeySet dist distributed",
    "distributions div divide __doc__ dot DoubleStorage DoubleTensor dropout dropout_ dsmm dsplit dstack",
    "dtype _dynamo e eig einsum embedding embedding_bag embedding_renorm_ empty empty_like empty_permuted",
    "empty_quantized empty_strided enable_grad EnumType _environment __eq__ eq equal erf erf_ erfc erfc_",
    "erfinv ErrorReport Event ExcludeDispatchKeyGuard ExecutionPlan exp exp_ exp2 exp2_ expand_copy expm1",
    "expm1_ _export export eye fake_quantize_per_channel_affine fake_quantize_per_tensor_affine FatalError",
    "fbgemm_linear_fp16_weight fbgemm_linear_fp16_weight_fp32_activation fbgemm_linear_int8_weight",
    "fbgemm_linear_int8_weight_fp32_activation fbgemm_linear_quantize_weight fbgemm_pack_gemm_matrix_fp16",
    "fbgemm_pack_quantized_matrix feature_alpha_dropout feature_alpha_dropout_ feature_dropout",
    "feature_dropout_ fft __file__ FileCheck fill fill_ finfo fix fix_ flatten flip fliplr flipud float_power",
    "FloatStorage FloatTensor FloatType floor floor_ floor_divide fmax fmin fmod fork __format__ frac frac_",
    "frexp frobenius_norm from_dlpack from_file from_numpy frombuffer full full_like func functional",
    "FunctionSchema functools _functorch fused_moving_avg_obs_fake_quant Future __future__ futures FutureType",
    "fx gather gcd gcd_ __ge__ ge Generator geqrf ger get_autocast_cpu_dtype get_autocast_dtype",
    "get_autocast_gpu_dtype get_autocast_ipu_dtype get_autocast_xla_dtype get_default_device",
    "get_default_dtype get_deterministic_debug_mode get_device get_device_module get_file_path",
    "get_float32_matmul_precision get_num_interop_threads get_num_threads get_rng_state __getattr__",
    "__getattribute__ __getstate__ glob Gradient gradient Graph GraphExecutorState greater greater_equal",
    "grid_sampler grid_sampler_2d grid_sampler_3d group_norm gru gru_cell __gt__ gt _guards HalfStorage",
    "HalfTensor hamming_window hann_window hardshrink has_cuda has_cudnn has_lapack has_mkl has_mkldnn",
    "has_mps has_openmp has_spectral __hash__ hash_tensor heaviside _higher_order_ops hinge_embedding_loss",
    "histc histogram histogramdd hsmm hsplit hspmm hstack hub hypot i0 i0_ igamma igammac iinfo imag",
    "import_ir_module import_ir_module_from_buffer importlib index_add index_copy index_fill index_put",
    "index_put_ index_reduce index_select indices_copy _inductor inf inference_mode InferredType __init__",
    "init_num_threads __init_subclass__ initial_seed inner inspect instance_norm int_repr InterfaceType",
    "IntStorage IntTensor IntType inverse IODescriptor is_anomaly_check_nan_enabled is_anomaly_enabled",
    "is_autocast_available is_autocast_cache_enabled is_autocast_cpu_enabled is_autocast_enabled",
    "is_autocast_ipu_enabled is_autocast_xla_enabled is_complex is_conj",
    "is_deterministic_algorithms_warn_only_enabled is_distributed is_floating_point is_grad_enabled",
    "is_inference is_inference_mode_enabled is_neg is_nonzero is_same_size is_signed is_storage is_tensor",
    "is_vulkan_available is_warn_always_enabled isclose isfinite isin isinf isnan isneginf isposinf isreal",
    "istft jagged jit _jit_internal JITException kaiser_window kl_div kron kthvalue layer_norm layout _lazy",
    "lcm lcm_ ldexp ldexp_ __le__ le legacy_contiguous_format lerp less less_equal lgamma _library library",
    "linalg _linalg_utils linspace ListType LiteScriptModule load __loader__ _lobpcg lobpcg LockingLogger log",
    "log_ log10 log10_ log1p log1p_ log2 log2_ log_softmax logaddexp logaddexp2 logcumsumexp logdet",
    "LoggerBase _logging logical_and logical_not logical_or logical_xor logit logit_ logspace logsumexp",
    "LongStorage LongTensor _lowrank __lshift__ lstm lstm_cell lstsq __lt__ lt lu lu_solve lu_unpack",
    "manual_seed margin_ranking_loss masked masked_fill masked_scatter masked_select math matmul matrix_exp",
    "matrix_power matrix_rank max max_pool1d max_pool1d_with_indices max_pool2d max_pool3d maximum mean",
    "median memory_format merge_type_from_type_comment meshgrid _meta_registrations min minimum",
    "miopen_batch_norm miopen_convolution miopen_convolution_add_relu miopen_convolution_relu",
    "miopen_convolution_transpose miopen_depthwise_convolution miopen_rnn mkldnn_adaptive_avg_pool2d",
    "mkldnn_convolution mkldnn_linear_backward_weights mkldnn_max_pool2d mkldnn_max_pool3d mkldnn_rnn_layer",
    "mm mode ModuleDict monitor moveaxis movedim mps msort mtia mul multinomial multiply multiprocessing mv",
    "mvlgamma __name__ _namedtensor_internals nan nan_to_num nan_to_num_ nanmean nanmedian nanquantile nansum",
    "narrow narrow_copy native_batch_norm native_channel_shuffle native_dropout native_group_norm",
    "native_layer_norm native_norm __ne__ ne neg neg_ negative negative_ nested __new__ newaxis nextafter nn",
    "no_grad Node NoneType nonzero nonzero_static NoopLogger norm norm_except_dim normal not_equal",
    "nuclear_norm NumberType numel _numpy ones ones_like onnx OperatorInfo _ops ops optim OptionalType __or__",
    "orgqr ormqr os outer OutOfMemoryError overrides __package__ package pairwise_distance ParameterDict",
    "parse_ir parse_schema parse_type_comment __path__ pca_lowrank pdist per_channel_affine",
    "per_channel_affine_float_qparams per_channel_symmetric per_tensor_affine per_tensor_symmetric permute",
    "permute_copy pi pinverse pixel_shuffle pixel_unshuffle platform poisson poisson_nll_loss polar polygamma",
    "positive pow prelu prepare_multiprocessing_environment preserve_format _prims _prims_common PRIVATE_OPS",
    "prod profiler profiler_allow_cudagraph_cupti_lazy_reinit_cuda12 promote_types put PyObjectType",
    "_python_dispatcher PyTorchFileReader PyTorchFileWriter q_per_channel_axis q_per_channel_scales",
    "q_per_channel_zero_points q_scale q_zero_point QInt32Storage QInt8Storage qr qscheme quantile",
    "quantization quantize_per_channel quantize_per_tensor quantize_per_tensor_dynamic quantized_batch_norm",
    "quantized_gru quantized_gru_cell quantized_lstm quantized_lstm_cell quantized_max_pool1d",
    "quantized_max_pool2d quantized_max_pool3d quantized_rnn_relu_cell quantized_rnn_tanh_cell quasirandom",
    "QUInt2x4Storage QUInt4x2Storage QUInt8Storage rad2deg rad2deg_ rand rand_like randint randint_like randn",
    "randn_like random randperm range ravel read_vitals real reciprocal reciprocal_ __reduce__ __reduce_ex__",
    "_refs relu relu_ remainder renorm repeat_interleave __repr__ reshape resize_as_ resize_as_sparse_",
    "resolve_conj resolve_neg result_type return_types rms_norm rnn_relu rnn_relu_cell rnn_tanh rnn_tanh_cell",
    "roll rot90 round round_ row_indices_copy row_stack RRefType rrelu rrelu_ __rshift__ rsqrt rsqrt_ rsub",
    "saddmm save scalar_tensor scatter scatter_add scatter_reduce ScriptClass ScriptClassFunction ScriptDict",
    "ScriptDictIterator ScriptDictKeyIterator ScriptFunction ScriptList ScriptListIterator ScriptMethod",
    "ScriptModule ScriptModuleSerializer ScriptObject ScriptObjectProperty searchsorted seed segment_reduce",
    "select select_copy select_scatter selu selu_ serialization SerializationStorageContext",
    "set_anomaly_enabled set_autocast_cache_enabled set_autocast_cpu_dtype set_autocast_cpu_enabled",
    "set_autocast_dtype set_autocast_enabled set_autocast_gpu_dtype set_autocast_ipu_dtype",
    "set_autocast_ipu_enabled set_autocast_xla_dtype set_autocast_xla_enabled set_default_device",
    "set_default_dtype set_default_tensor_type set_deterministic_debug_mode set_float32_matmul_precision",
    "set_flush_denormal set_num_interop_threads set_num_threads set_printoptions set_rng_state set_vital",
    "set_warn_always __setattr__ sgn ShortStorage ShortTensor sigmoid sigmoid_ sign signal signbit sin sin_",
    "sinc sinc_ sinh sinh_ Size _size_docs __sizeof__ slice_copy slice_inverse slice_scatter slogdet smm",
    "softmax solve sort _sources sparse sparse_bsc sparse_bsc_tensor sparse_bsr sparse_bsr_tensor",
    "sparse_compressed_tensor sparse_coo sparse_coo_tensor sparse_csc sparse_csc_tensor sparse_csr",
    "sparse_csr_tensor sparse_resize_ sparse_resize_and_clear_ spawn __spec__ special split split_copy",
    "split_with_sizes split_with_sizes_copy spmm sqrt sqrt_ square square_ squeeze squeeze_copy sspaddmm",
    "stack StaticModule std std_mean stft Storage storage _storage_docs StorageBase __str__ Stream",
    "_streambase StreamObjType strided StringType _strobelight sub _subclasses __subclasshook__ subtract sum",
    "svd svd_lowrank swapaxes swapdims sym_api sym_constrain_range sym_constrain_range_for_size sym_float",
    "sym_fresh_size sym_int sym_ite sym_max sym_min sym_not sym_sqrt sym_sum SymBool SymBoolType symeig",
    "SymFloat SymInt SymIntType sys t t_copy Tag take take_along_dim tan tan_ tanh tanh_ Tensor _tensor",
    "tensor _tensor_docs tensor_split _tensor_str tensordot TensorType testing textwrap _thread_safe_fork",
    "threading threshold threshold_ ThroughputBenchmark tile to_dlpack topk torch _torch_docs torch_version",
    "trace TracingState transpose transpose_copy trapezoid trapz triangular_solve tril tril_indices",
    "triplet_margin_loss triu triu_indices true_divide trunc trunc_ TupleType Type TYPE_CHECKING TypedStorage",
    "typename types unbind unbind_copy unflatten unfold_copy unify_type_list UnionType unique",
    "unique_consecutive unravel_index unsafe_chunk unsafe_split unsafe_split_with_sizes unsqueeze",
    "unsqueeze_copy UntypedStorage Use use_deterministic_algorithms USE_GLOBAL_DEPS",
    "USE_RTLD_GLOBAL_WITH_LIBTORCH _utils utils _utils_internal Value values_copy vander var var_mean vdot",
    "_vendor __version__ version _VF view_as_complex view_as_complex_copy view_as_real view_as_real_copy",
    "view_copy vitals_enabled vmap _vmap_internals vsplit vstack wait _weights_only_unpickler where",
    "while_loop xlogy xlogy_ __xor__ xpu zero_ zeros zeros_like"]

/-- The backend has something else under a name. -/
def isOtherName (s : String) : Bool :=
  !s.isEmpty && otherNames.any fun line => (line.splitOn " ").contains s

end Dataflow.Torch
